import DeviceBuilder.Helpers.TopBlock
import DeviceBuilder.Properties.LeafWalk

/-!
# Setting a leaf of a top-level block

An upsert ends in one of three ways: it rewrites the line of the leaf, or of the
substitution the leaf refers to (`settled_of_read`); it inserts a line at the end of the
block (`settled_of_insert`); or it puts a new block in front (`settled_of_prepend`).
Each leaves a text in which the leaf resolves to the value and that a second upsert
leaves as it is (`UpsertSettled`).

* `openAt_of_even`: in a block indented evenly with blanks, the walker takes the inserted
  line for a leaf of the block.
* `upsert_settles`: the three ways together.
-/

namespace DeviceBuilder

open Lines

variable {word : Char → Bool} {y : Emitter} {text result block leaf value w : Text}
  {path : List Text} {lines : List Text} {i : ℕ} {m : KeyMatch}

/-! ### Writing what stands there -/

/-- A line that has the value and the comment as the writer puts them. -/
theorem rewrite_same {line : Text} (hline : lineShape word line = .entry m.depth m)
    (hrest : m.rest = ' ' :: w ++ m.comment) : m.rewrite line w = line := by
  obtain ⟨-, htext, -⟩ := lineShape_entry hline
  have hwritten : (m.written w).rest = m.rest := hrest.symm
  rw [rewrite_eq, hwritten, ← htext]
  exact (content_rest line).1.symm

theorem rewriteYamlScalar_same (h : leafOf word path (splitlines text) = some (i, m))
    (hrest : m.rest = ' ' :: w ++ m.comment) :
    rewriteYamlScalar word text path (fun _ => some w) = text := by
  obtain ⟨hi, hline⟩ := leafOf_line h
  simp only [rewriteYamlScalar, h]
  rw [lineAt_eq hi, rewrite_same hline hrest, List.set_getElem_self,
    splitlines_flatten]

/-! ### The leaf is there -/

/-- `rewrite_name_or_substitution` read backwards: the leaf, or the substitution it refers to. -/
def resolveLeaf (word : Char → Bool) (text : Text) (path : List Text) : Option Text :=
  readYamlScalar word text (targetPath word text path)

/-- The value does not itself refer to a substitution of the file. -/
def NoReference (word : Char → Bool) (text block w : Text) : Prop :=
  ∀ var, parseSubstitutionRef word w = some var →
    block ≠ substitutions ∧ readYamlScalar word text [substitutions, var] = none

theorem targetPath_cases (word : Char → Bool) (text : Text) (path : List Text) :
    (∃ raw var, readYamlScalar word text path = some raw ∧
      parseSubstitutionRef word raw = some var ∧
      (readYamlScalar word text [substitutions, var]).isSome = true ∧
      targetPath word text path = [substitutions, var]) ∨
    targetPath word text path = path := by
  unfold targetPath
  cases hraw : readYamlScalar word text path with
  | none => exact Or.inr rfl
  | some raw =>
    rw [Option.bind_some]
    cases hvar : parseSubstitutionRef word raw with
    | none => exact Or.inr rfl
    | some var =>
      dsimp only
      split
      · next hs => exact Or.inl ⟨raw, var, rfl, hvar, hs, rfl⟩
      · exact Or.inr rfl

theorem targetPath_of_ref {raw var : Text} (hraw : readYamlScalar word text path = some raw)
    (hvar : parseSubstitutionRef word raw = some var)
    (hs : (readYamlScalar word text [substitutions, var]).isSome = true) :
    targetPath word text path = [substitutions, var] := by
  unfold targetPath
  rw [hraw, Option.bind_some, hvar]
  dsimp only
  rw [if_pos hs]

theorem targetPath_of_read (hread : readYamlScalar word text path = some w)
    (hno : ∀ var, parseSubstitutionRef word w = some var →
      readYamlScalar word text [substitutions, var] = none) :
    targetPath word text path = path := by
  unfold targetPath
  rw [hread, Option.bind_some]
  cases hvar : parseSubstitutionRef word w with
  | none => rfl
  | some var =>
    dsimp only
    rw [hno var hvar]
    rfl

/-- The result resolves to the value, and a second write changes nothing. -/
structure UpsertSettled (word : Char → Bool) (path : List Text) (w result : Text) : Prop where
  resolves : resolveLeaf word result path = some w
  read : (readYamlScalar word result path).isSome = true
  again : rewriteYamlScalar word result (targetPath word result path) (fun _ => some w) = result

theorem settled_of_read (hread : (readYamlScalar word text [block, leaf]).isSome = true)
    (hw : IsScalar w) (hstrip : stripText w = w)
    (hends : LeafEnds word text (targetPath word text [block, leaf]))
    (href : targetPath word text [block, leaf] = [block, leaf] → NoReference word text block w) :
    let result := rewriteYamlScalar word text (targetPath word text [block, leaf])
      fun _ => some w
    UpsertSettled word [block, leaf] w result ∧
      ∃ i m line, leafOf word (targetPath word text [block, leaf]) (splitlines text) = some (i, m) ∧
        splitlines result = (splitlines text).set i line := by
  intro result
  have htarget : (readYamlScalar word text (targetPath word text [block, leaf])).isSome = true := by
    rcases targetPath_cases word text [block, leaf] with ⟨raw, var, -, -, hs, ht⟩ | ht
    · rw [ht]
      exact hs
    · rw [ht]
      exact hread
  obtain ⟨v, hv⟩ := Option.isSome_iff_exists.1 htarget
  obtain ⟨⟨i, m⟩, hleaf, -⟩ := Option.map_eq_some_iff.1 hv
  obtain ⟨hlines, hnew, hothers⟩ :=
    leafOf_rewritten (fun _ => some w) hw hleaf rfl hends
  have hback : readYamlScalar word result (targetPath word text [block, leaf]) = some w := by
    rw [readYamlScalar, hnew, Option.map_some, written_value hw, hstrip]
  have hpath : (readYamlScalar word result [block, leaf]).isSome = true ∧
      targetPath word result [block, leaf] = targetPath word text [block, leaf] := by
    by_cases hsame : targetPath word text [block, leaf] = [block, leaf]
    · rw [hsame] at hback ⊢
      refine ⟨by rw [hback]; rfl, targetPath_of_read hback fun var hvar => ?_⟩
      obtain ⟨hblock, hnone⟩ := href hsame var hvar
      rw [← hnone]
      refine hothers _ fun he => hblock ?_
      rw [hsame] at he
      cases he
      rfl
    · obtain ⟨raw, var, hraw, hvar, -, ht⟩ :=
        (targetPath_cases word text [block, leaf]).resolve_right hsame
      have hraw' : readYamlScalar word result [block, leaf] = some raw := by
        rw [← hraw]
        exact hothers _ fun he => hsame he.symm
      refine ⟨by rw [hraw']; rfl, ?_⟩
      rw [ht] at hback ⊢
      exact targetPath_of_ref hraw' hvar (by rw [hback]; rfl)
  refine ⟨⟨?_, hpath.1, ?_⟩, i, m, _, hleaf, hlines⟩
  · rw [resolveLeaf, hpath.2, hback]
  · rw [hpath.2]
    refine rewriteYamlScalar_same hnew ?_
    rw [written_comment hw]
    rfl

/-! ### The newline at the end -/

theorem newlineStyle_eq (text : Text) :
    newlineStyle text = ['\n'] ∨ newlineStyle text = ['\r', '\n'] := by
  unfold newlineStyle
  split
  · exact Or.inr rfl
  · exact Or.inl rfl

theorem content_append_nl (l text : Text) : content (l ++ newlineStyle text) = content l := by
  rcases newlineStyle_eq text with h | h
  · rw [h, content_append_newline]
  · rw [h, content_append_crlf]

theorem ended_newlineStyle (text : Text) {b : Text} (hb : ∀ c ∈ b, isBreak c = false) :
    Ended (b ++ newlineStyle text) ∧ (b ++ newlineStyle text).getLast? = some '\n' := by
  rcases newlineStyle_eq text with h | h
  · rw [h]
    exact ⟨⟨b, hb, Or.inr ⟨'\n', rfl, rfl⟩⟩, by simp⟩
  · rw [h]
    exact ⟨⟨b, hb, Or.inl rfl⟩, by simp⟩

theorem ended_normalize {l : Text} (hl : l ∈ splitlines (normalizeTrailingNewline text)) :
    Ended l := by
  refine ended_of_getLast (fun c hc => ?_) hl
  unfold normalizeTrailingNewline at hc
  split at hc
  · next hall =>
    rw [hc] at hall
    rcases (by simpa using hall : c = '\n' ∨ c = '\r') with rfl | rfl <;> rfl
  · have hn : newlineStyle text ≠ [] := by
      rcases newlineStyle_eq text with h | h <;> rw [h] <;> exact List.cons_ne_nil _ _
    rw [List.getLast?_append_of_ne_nil _ hn] at hc
    rcases newlineStyle_eq text with h | h <;> rw [h] at hc <;> cases hc <;> rfl

theorem lineShape_newline (text : Text) : lineShape word (newlineStyle text) = .gap := by
  rcases newlineStyle_eq text with h | h <;> rw [h] <;> rfl

/-- The lines with a newline at the end of the last one. -/
theorem splitlines_normalize (text : Text) :
    splitlines (normalizeTrailingNewline text) = splitlines text ∨
    (∃ init l, splitlines text = init ++ [l] ∧
      splitlines (normalizeTrailingNewline text) = init ++ [l ++ newlineStyle text]) ∨
    splitlines (normalizeTrailingNewline text) = splitlines text ++ [newlineStyle text] := by
  unfold normalizeTrailingNewline
  split
  · exact Or.inl rfl
  · next hlast =>
    right
    have hne : splitlines text ≠ [] := by
      intro h
      have ht := splitlines_flatten text
      rw [h] at ht
      rw [← ht] at hlast
      exact hlast rfl
    have hinit := (List.dropLast_append_getLast hne).symm
    have hcut := cut_splitlines text
    generalize (splitlines text).dropLast = init at hinit
    generalize (splitlines text).getLast hne = l at hinit
    have hflat : text = init.flatten ++ l := by
      rw [← splitlines_flatten text, hinit]
      simp
    rw [hinit] at hcut ⊢
    rcases hcut.ended_or (List.mem_append_right _ List.mem_cons_self) with hl | hl
    · right
      have hnl := (ended_newlineStyle text (b := []) nofun).1
      rw [List.nil_append] at hnl
      have hall : Cut (init ++ [l] ++ [newlineStyle text]) := by
        refine cut_append hcut (Or.inl hnl) (fun m hm => ?_) fun m m' hm hm' hs => ?_
        · rcases List.mem_append.1 hm with hm | hm
          · exact hcut.ended (List.cons_ne_nil _ _) hm
          · rw [List.mem_singleton.1 hm]
            exact hl
        · rw [List.getLast?_concat] at hm
          cases hm
          have h1 := hs.1
          have h2 : text.getLast? = some '\r' := by
            rw [hflat, List.getLast?_append_of_ne_nil _ hl.ne_nil, h1]
          rw [h2] at hlast
          exact hlast rfl
      have hjoin : ∀ e : Text, (init ++ [l] ++ [e]).flatten = text ++ e := fun e => by
        rw [hflat]
        simp
      rw [← hjoin, splitlines_of_cut hall]
    · left
      refine ⟨init, l, rfl, ?_⟩
      have hall := cut_concat_end hcut hl (newlineStyle_eq text)
      have hjoin : ∀ e : Text, (init ++ [l ++ e]).flatten = text ++ e := fun e => by
        rw [hflat]
        simp
      rw [← hjoin, splitlines_of_cut hall]

/-- **The newline hides no leaf and makes none.** -/
theorem findLeaf_normalize {p : List Text} {k : Text} {stack : Frames}
    (h : findLeaf word p k stack (splitlines text) = none) :
    findLeaf word p k stack (splitlines (normalizeTrailingNewline text)) = none := by
  rcases splitlines_normalize text with he | ⟨init, l, hold, hnew⟩ | he
  · rw [he]
    exact h
  · rw [hnew, ← h, hold]
    refine findLeaf_shapes ?_
    rw [List.map_append, List.map_append, List.map_singleton, List.map_singleton,
      lineShape_congr (content_append_nl l text)]
  · rw [he, findLeaf_append_none]
    refine ⟨h, ?_⟩
    rw [findLeaf, lineShape_newline]
    rfl

/-! ### A written line -/

/-- A key as the walker reads one, on one line. -/
structure IsKey (word : Char → Bool) (key : Text) : Prop where
  shape : ∃ c cs, key = c :: cs ∧ opensKey c = true ∧ ∀ d ∈ cs, inKey word d = true
  oneLine : ∀ c ∈ key, isBreak c = false

/-- The match of a new line `<indent><key>: <w>`. -/
def newMatch (indent key w : Text) : KeyMatch := ⟨indent, key, ' ' :: w⟩

theorem newMatch_rest (hw : IsScalar w) (indent key : Text) :
    (newMatch indent key w).rest = ' ' :: w ++ (newMatch indent key w).comment := by
  have hsplit := split_written hw (Or.inl rfl : IsComment [])
  rw [List.append_nil] at hsplit
  have hnone : (newMatch indent key w).comment = [] := congrArg Prod.snd hsplit
  rw [hnone, List.append_nil]
  rfl

theorem settled_of_leaf (i : ℕ) (indent key : Text) (hw : IsScalar w) (hstrip : stripText w = w)
    (h : leafOf word path (splitlines result) = some (i, newMatch indent key w))
    (href : ∀ var, parseSubstitutionRef word w = some var →
      readYamlScalar word result [substitutions, var] = none) :
    UpsertSettled word path w result := by
  have hvalue : (newMatch indent key w).value = w := by
    have hsplit := split_written hw (Or.inl rfl : IsComment [])
    rw [List.append_nil] at hsplit
    have hfirst : (splitValueAndComment (newMatch indent key w).rest).1 = ' ' :: w :=
      congrArg Prod.fst hsplit
    rw [KeyMatch.value, hfirst]
    exact hstrip
  have hread : readYamlScalar word result path = some w := by
    rw [readYamlScalar, h, Option.map_some, hvalue]
  have ht := targetPath_of_read hread href
  refine ⟨by rw [resolveLeaf, ht, hread], by rw [hread]; rfl, ?_⟩
  rw [ht]
  exact rewriteYamlScalar_same h (newMatch_rest hw indent key)

theorem newMatch_ok {indent key : Text} (hindent : ∀ c ∈ indent, Lines.isSpace c = true)
    (hkey : IsKey word key) : (newMatch indent key w).Ok word :=
  ⟨hindent, hkey.shape⟩

/-- A key at the start of its line. -/
theorem lineShape_header {line t : Text} (hkey : IsKey word block)
    (h : content line = block ++ ':' :: t) : lineShape word line = .entry 0 ⟨[], block, t⟩ := by
  have hok : KeyMatch.Ok word ⟨[], block, []⟩ := ⟨nofun, hkey.shape⟩
  exact lineShape_text hok h

/-- The text of a new line has no boundary. -/
theorem newMatch_oneLine {indent key : Text} (hindent : ∀ c ∈ indent, isBreak c = false)
    (hkey : IsKey word key) (hw : ∀ c ∈ w, isBreak c = false) :
    ∀ c ∈ (newMatch indent key w).text (' ' :: w), isBreak c = false := by
  intro c hc
  simp only [KeyMatch.text, newMatch, List.mem_append, List.mem_cons] at hc
  rcases hc with (hc | hc) | rfl | rfl | hc
  · exact hindent c hc
  · exact hkey.oneLine c hc
  · rfl
  · rfl
  · exact hw c hc

theorem lineShape_new {indent key : Text} (hspace : ∀ c ∈ indent, Lines.isSpace c = true)
    (hindent : ∀ c ∈ indent, isBreak c = false) (hkey : IsKey word key)
    (hw : ∀ c ∈ w, isBreak c = false) (text : Text) :
    lineShape word ((newMatch indent key w).text (' ' :: w) ++ newlineStyle text) =
      .entry (newMatch indent key w).depth (newMatch indent key w) := by
  refine lineShape_text (newMatch_ok hspace hkey) ?_
  rw [content_append_nl, content_of_not_break (newMatch_oneLine hindent hkey hw)]

/-- No line feed begins a new line. -/
theorem not_seam_new {l b e : Text} (hb : ∀ c ∈ b, isBreak c = false) (hne : b ≠ []) :
    ¬ Seam l (b ++ e) := by
  rintro ⟨-, hhead⟩
  obtain ⟨c, cs, rfl⟩ := List.exists_cons_of_ne_nil hne
  cases hhead
  cases hb '\n' List.mem_cons_self

/-! ### A leaf line in the block -/

theorem leafOf_pair (lines : List Text) :
    leafOf word [block, leaf] lines = findLeaf word [block] leaf [] lines := rfl

theorem readYamlScalar_pair_eq_none : readYamlScalar word text [block, leaf] = none ↔
    findLeaf word [block] leaf [] (splitlines text) = none := by
  rw [readYamlScalar, Option.map_eq_none_iff, leafOf_pair]

/-- A new line at `pos` stands directly under the block for the walker. -/
structure OpenAt (word : Char → Bool) (lines : List Text) (pos : ℕ) (indent block : Text) :
    Prop where
  oneLine : ∀ c ∈ indent, isBreak c = false
  under : ((walk word [] (lines.take pos)).enclosing (leadingWs indent).length).keys = [block]

theorem settled_of_insert (hleaf : IsKey word leaf) (hw : IsScalar w) (hstrip : stripText w = w)
    {pos : ℕ} {indent : Text} (hspace : ∀ c ∈ indent, Lines.isSpace c = true)
    (hopen : OpenAt word (splitlines (normalizeTrailingNewline text)) pos indent block)
    (hnone : readYamlScalar word text [block, leaf] = none)
    (href : NoReference word text block w) :
    let lines := splitlines (normalizeTrailingNewline text)
    let line := (newMatch indent leaf w).text (' ' :: w) ++ newlineStyle text
    let result := (lines.take pos ++ line :: lines.drop pos).flatten
    UpsertSettled word [block, leaf] w result ∧
      splitlines result = lines.take pos ++ line :: lines.drop pos := by
  intro lines line result
  have hbody := newMatch_oneLine hopen.oneLine hleaf hw.oneLine
  have hshape := lineShape_new hspace hopen.oneLine hleaf hw.oneLine text
  have hcut : splitlines result = lines.take pos ++ line :: lines.drop pos := by
    have hended := ended_newlineStyle text hbody
    refine splitlines_of_cut (cut_insert ?_ (fun m hm => ?_) hended.1 hended.2 fun m _ => ?_)
    · rw [List.take_append_drop]
      exact cut_splitlines _
    · exact ended_normalize (List.mem_of_mem_take hm)
    · refine not_seam_new hbody fun h => ?_
      have hlen := congrArg List.length h
      simp [KeyMatch.text] at hlen
  have hfind : ∀ {p : List Text} {k : Text}, findLeaf word p k [] (splitlines text) = none →
      findLeaf word p k [] (lines.take pos) = none ∧
        findLeaf word p k (walk word [] (lines.take pos)) (lines.drop pos) = none := by
    intro p k h
    rw [← findLeaf_append_none, List.take_append_drop]
    exact findLeaf_normalize h
  refine ⟨settled_of_leaf (lines.take pos).length indent leaf hw hstrip ?_ fun var hvar => ?_, hcut⟩
  · have hfront := (hfind (readYamlScalar_pair_eq_none.1 hnone)).1
    have hhere : findLeaf word [block] leaf (walk word [] (lines.take pos))
        (line :: lines.drop pos) = some (0, newMatch indent leaf w) :=
      findLeaf_cons_of_leaf hshape rfl hopen.under
    rw [hcut, leafOf_pair, findLeaf_append hfront, hhere]
    simp
  · obtain ⟨hblock, hvnone⟩ := href var hvar
    obtain ⟨hfront, hback⟩ := hfind (readYamlScalar_pair_eq_none.1 hvnone)
    rw [readYamlScalar_pair_eq_none, hcut]
    have hother : ¬ IsLeaf word [substitutions] var (walk word [] (lines.take pos)) line := by
      rintro ⟨n, m, hs, -, hp⟩
      rw [hshape] at hs
      cases hs
      have heq := hp.symm.trans hopen.under
      cases heq
      exact hblock rfl
    rw [findLeaf_append_none, findLeaf_cons_of_not hother, Option.map_eq_none_iff]
    refine ⟨hfront, findLeaf_apart (Ne.symm hblock) ?_ hback⟩
    -- the walk over the new lines has the new leaf on the block, and nothing in between
    unfold Frames.visit
    rw [hshape]
    have hunder := hopen.under
    generalize walk word [] (lines.take pos) = stack at hunder ⊢
    show WalksApart block stack (((leadingWs indent).length, leaf) ::
      stack.enclosing (leadingWs indent).length)
    generalize (leadingWs indent).length = n at hunder ⊢
    obtain ⟨⟨f, key⟩, hf⟩ : ∃ f, stack.enclosing n = [f] := by
      have hlen := congrArg List.length hunder
      rw [Frames.keys, List.length_reverse, List.length_map, List.length_singleton] at hlen
      exact List.length_eq_one_iff.1 hlen
    rw [hf] at hunder
    obtain rfl : block = key := by simpa [Frames.keys, eq_comm] using hunder
    have hlt : f < n := Frames.lt_of_enclosing hf
    refine Or.inr ⟨n, f, [(n, leaf)], hlt.le, by rw [hf]; rfl, ?_⟩
    rw [Frames.enclosing_cons (Nat.le_refl n), Frames.enclosing_enclosing (Nat.le_refl n)]

/-! ### A new block -/

theorem startsWith_iff {s w : Text} : startsWith s w = true ↔ ∃ t, s = w ++ t := by
  unfold startsWith
  rw [List.isPrefixOf_iff_prefix]
  constructor
  · rintro ⟨t, rfl⟩
    exact ⟨t, rfl⟩
  · rintro ⟨t, rfl⟩
    exact ⟨t, rfl⟩

/-- What the first character of a directive can be. -/
theorem isDirective_spec {l : Text} (h : isDirective l = true) {c : Char} {cs : Text}
    (hd : l.dropWhile Lines.isSpace = c :: cs) : c = '%' ∨ c = '-' ∧ cs.head? = some '-' := by
  have hc : Lines.isSpace c = false := by
    have hget := List.dropWhile_get_zero_not Lines.isSpace l (by rw [hd]; exact Nat.succ_pos _)
    simpa [hd] using hget
  obtain ⟨e, he⟩ : ∃ e, stripText l ++ e = c :: cs := by
    rw [← hd]
    exact List.rdropWhile_prefix _ _
  unfold isDirective at h
  dsimp only at h
  rw [Bool.or_eq_true, Bool.or_eq_true, beq_iff_eq] at h
  rcases h with (h | h) | h
  · have hall := stripText_eq_nil_iff.1 h c
      ((List.dropWhile_suffix _).subset (hd ▸ List.mem_cons_self))
    rw [hc] at hall
    cases hall
  · obtain ⟨t, ht⟩ := startsWith_iff.1 h
    rw [ht] at he
    cases he
    exact Or.inl rfl
  · obtain ⟨t, ht⟩ := startsWith_iff.1 h
    rw [ht] at he
    cases he
    exact Or.inr ⟨rfl, rfl⟩

/-- The first character of a line that is not white space. -/
theorem dropWhile_of_content {l a b : Text} {c : Char} (ha : ∀ d ∈ a, Lines.isSpace d = true)
    (hc : Lines.isSpace c = false) (h : content l = a ++ c :: b) :
    ∃ e, l.dropWhile Lines.isSpace = c :: (b ++ e) ∧ ∀ d ∈ e, d = '\n' ∨ d = '\r' := by
  obtain ⟨hl, he⟩ := content_rest l
  refine ⟨_, ?_, he⟩
  conv_lhs => rw [hl, h, List.append_assoc]
  rw [h]
  exact (dropWhile_append_cons ha hc).2

/-- No directive opens a frame. -/
theorem visit_directive {l : Text} (h : isDirective l = true) :
    Frames.visit word [] l = [] := by
  unfold Frames.visit
  cases hs : lineShape word l with
  | gap => rfl
  | other n => rfl
  | item n =>
    exfalso
    have hdash : startsWith (lstripBlanks (content l)) ['-', ' '] = true ∨
        lstripBlanks (content l) = ['-'] := by
      unfold lineShape at hs
      dsimp only at hs
      split at hs
      · cases hs
      · split at hs
        · next hitem => simpa using hitem
        · split at hs <;> cases hs
    have hparts := (List.takeWhile_append_dropWhile (p := (· == ' ')) (l := content l)).symm
    have hblank : ∀ d ∈ (content l).takeWhile (· == ' '), Lines.isSpace d = true := by
      intro d hd
      have hd' := List.mem_takeWhile_imp hd
      rw [beq_iff_eq] at hd'
      rw [hd']
      rfl
    obtain ⟨t, ht, hnot⟩ : ∃ t, lstripBlanks (content l) = '-' :: t ∧ t.head? ≠ some '-' ∧
        (t = [] ∨ t.head? = some ' ') := by
      rcases hdash with hd | hd
      · obtain ⟨t, ht⟩ := startsWith_iff.1 hd
        exact ⟨' ' :: t, ht, by simp, Or.inr rfl⟩
      · exact ⟨[], hd, by simp, Or.inl rfl⟩
    unfold lstripBlanks at ht
    rw [ht] at hparts
    obtain ⟨e, he, hend⟩ := dropWhile_of_content hblank rfl hparts
    rcases isDirective_spec h he with hc | ⟨-, hc⟩
    · cases hc
    · rcases hnot.2 with rfl | hsp
      · rw [List.nil_append] at hc
        rcases hend '-' (List.mem_of_head? hc) with hc | hc <;> cases hc
      · cases t with
        | nil => cases hsp
        | cons d t =>
          cases hsp
          cases hc
  | entry n m =>
    exfalso
    obtain ⟨hok, htext, -⟩ := lineShape_entry hs
    obtain ⟨c, cs, hkey, hc, -⟩ := hok.key
    have hspace := (opensKey_spec hc).1
    rw [KeyMatch.text, hkey, List.append_assoc, List.cons_append] at htext
    obtain ⟨e, he, -⟩ := dropWhile_of_content hok.indent hspace htext
    rcases isDirective_spec h he with rfl | ⟨rfl, -⟩ <;> cases hc

theorem walk_directives (lines : List Text) :
    walk word [] (lines.take (findPrependAnchor lines)) = [] := by
  have htake : lines.take (findPrependAnchor lines) = lines.takeWhile isDirective := by
    unfold findPrependAnchor
    exact (List.prefix_iff_eq_take.1 (List.takeWhile_prefix _)).symm
  rw [htake]
  have hall : ∀ l ∈ lines.takeWhile isDirective, isDirective l = true := fun l hl =>
    List.mem_takeWhile_imp hl
  generalize lines.takeWhile isDirective = front at hall
  induction front with
  | nil => rfl
  | cons l front ih =>
    show walk word (Frames.visit word [] l) front = []
    rw [visit_directive (hall l List.mem_cons_self)]
    exact ih fun m hm => hall m (List.mem_cons_of_mem _ hm)

theorem settled_of_prepend (hblock : IsKey word block) (hleaf : IsKey word leaf) (hw : IsScalar w)
    (hstrip : stripText w = w) (hnone : readYamlScalar word text [block, leaf] = none)
    (href : NoReference word text block w) :
    let lines := splitlines (normalizeTrailingNewline text)
    let pos := findPrependAnchor lines
    let header := block ++ [':'] ++ newlineStyle text
    let line := (newMatch esphomeYamlIndent leaf w).text (' ' :: w) ++ newlineStyle text
    let result := prependTopBlock lines (header ++ line) (newlineStyle text)
    UpsertSettled word [block, leaf] w result ∧
      ∃ gap, (gap = [] ∨ gap = [newlineStyle text]) ∧
        splitlines result = lines.take pos ++ header :: line :: gap ++ lines.drop pos := by
  intro lines pos header line result
  have hblanks : ∀ c ∈ esphomeYamlIndent, c = ' ' := by simp [esphomeYamlIndent]
  have hspace : ∀ c ∈ esphomeYamlIndent, Lines.isSpace c = true := fun c hc => by
    rw [hblanks c hc]
    rfl
  have hindent : ∀ c ∈ esphomeYamlIndent, isBreak c = false := fun c hc => by
    rw [hblanks c hc]
    rfl
  have hbody := newMatch_oneLine hindent hleaf hw.oneLine
  have hshape := lineShape_new hspace hindent hleaf hw.oneLine text
  have hheadbody : ∀ c ∈ block ++ [':'], isBreak c = false := fun c hc => by
    rcases List.mem_append.1 hc with hc | hc
    · exact hblock.oneLine c hc
    · rw [List.mem_singleton.1 hc]
      rfl
  have hheader : lineShape word header = .entry 0 ⟨[], block, []⟩ :=
    lineShape_header hblock (by rw [content_append_nl, content_of_not_break hheadbody])
  obtain ⟨gap, hgap, hresult⟩ : ∃ gap, (gap = [] ∨ gap = [newlineStyle text]) ∧
      result = (lines.take pos ++ header :: line :: gap ++ lines.drop pos).flatten := by
    by_cases hrest : ((lines.drop pos).flatten.head?.all fun c => c == '\n' || c == '\r') = true
    · refine ⟨[], Or.inl rfl, ?_⟩
      simp only [result, prependTopBlock, insertTopBlockAt]
      rw [if_pos hrest]
      simp [pos]
    · refine ⟨[newlineStyle text], Or.inr rfl, ?_⟩
      simp only [result, prependTopBlock, insertTopBlockAt]
      rw [if_neg hrest]
      simp [pos]
  have hcut : splitlines result = lines.take pos ++ header :: line :: gap ++ lines.drop pos := by
    rw [hresult]
    refine splitlines_of_cut ?_
    have hlines : Cut (lines.take pos ++ lines.drop pos) := by
      rw [List.take_append_drop]
      exact cut_splitlines _
    have hfront : ∀ l ∈ lines.take pos, Ended l := fun l hl =>
      ended_normalize (List.mem_of_mem_take hl)
    have hend1 := ended_newlineStyle text hheadbody
    have hend2 := ended_newlineStyle text hbody
    have hcut1 : Cut ((lines.take pos ++ [header]) ++ lines.drop pos) := by
      rw [List.append_assoc]
      exact cut_insert hlines hfront hend1.1 hend1.2 fun m _ =>
        not_seam_new hheadbody (List.append_ne_nil_of_right_ne_nil _ (List.cons_ne_nil _ _))
    have hfront1 : ∀ l ∈ lines.take pos ++ [header], Ended l := fun l hl => by
      rcases List.mem_append.1 hl with hl | hl
      · exact hfront l hl
      · rw [List.mem_singleton.1 hl]
        exact hend1.1
    have hcut2 : Cut ((lines.take pos ++ [header] ++ [line]) ++ lines.drop pos) := by
      rw [List.append_assoc _ [line]]
      exact cut_insert hcut1 hfront1 hend2.1 hend2.2 fun m _ => not_seam_new hbody fun h => by
        have hlen := congrArg List.length h
        simp [KeyMatch.text] at hlen
    rcases hgap with rfl | rfl
    · simpa using hcut2
    · have hnl := ended_newlineStyle text (b := []) (by simp)
      rw [List.nil_append] at hnl
      have hcut3 := cut_insert hcut2 (fun l hl => by
        rcases List.mem_append.1 hl with hl | hl
        · exact hfront1 l hl
        · rw [List.mem_singleton.1 hl]
          exact hend2.1) hnl.1 hnl.2 fun m hm hs => by
            rw [List.getLast?_concat] at hm
            cases hm
            have h1 := hs.1
            rw [hend2.2] at h1
            cases h1
      simpa using hcut3
  have hfind : ∀ {p : List Text} {k : Text}, findLeaf word p k [] (splitlines text) = none →
      findLeaf word p k [] (lines.take pos) = none ∧
        findLeaf word p k [] (lines.drop pos) = none := by
    intro p k h
    have hwalk : walk word [] (lines.take pos) = [] := walk_directives lines
    have hall : findLeaf word p k [] (lines.take pos ++ lines.drop pos) = none := by
      rw [List.take_append_drop]
      exact findLeaf_normalize h
    rw [findLeaf_append_none, hwalk] at hall
    exact hall
  have hwalk : walk word [] (lines.take pos) = [] := walk_directives lines
  have htop : ∀ {q k : Text}, ¬ IsLeaf word [q] k [] header := by
    rintro q k ⟨n, m, -, -, hp⟩
    cases hp
  have hvisit : Frames.visit word [] header = [(0, block)] := by
    rw [Frames.visit, hheader]
    rfl
  refine ⟨settled_of_leaf ((lines.take pos).length + 1) esphomeYamlIndent leaf hw hstrip ?_
    fun var hvar => ?_, gap, hgap, hcut⟩
  · have hhere : findLeaf word [block] leaf [(0, block)] (line :: gap ++ lines.drop pos) =
        some (0, newMatch esphomeYamlIndent leaf w) := findLeaf_cons_of_leaf hshape rfl rfl
    rw [hcut, leafOf_pair, List.append_assoc,
      findLeaf_append (hfind (readYamlScalar_pair_eq_none.1 hnone)).1, hwalk, List.cons_append,
      findLeaf_cons_of_not htop, hvisit, hhere, Option.map_some, Option.map_some, Nat.add_comm]
  · obtain ⟨hne, hvnone⟩ := href var hvar
    obtain ⟨hfront, hback⟩ := hfind (readYamlScalar_pair_eq_none.1 hvnone)
    have hother : ¬ IsLeaf word [substitutions] var [(0, block)] line := by
      rintro ⟨n, m, hs, -, hp⟩
      rw [hshape] at hs
      cases hs
      cases hp
      exact hne rfl
    have hdeep : Frames.visit word [(0, block)] line = [(2, leaf), (0, block)] := by
      rw [Frames.visit, hshape]
      rfl
    have hapart : WalksApart block [] [(2, leaf), (0, block)] :=
      Or.inr ⟨0, 0, [(2, leaf)], Nat.le_refl _, rfl, rfl⟩
    have hrest := findLeaf_apart (Ne.symm hne) hapart hback
    rw [readYamlScalar_pair_eq_none, hcut, List.append_assoc, findLeaf_append_none, hwalk,
      List.cons_append, List.cons_append, findLeaf_cons_of_not htop, Option.map_eq_none_iff, hvisit,
      findLeaf_cons_of_not hother, Option.map_eq_none_iff, hdeep]
    refine ⟨hfront, ?_⟩
    rcases hgap with rfl | rfl
    · exact hrest
    · rw [List.cons_append, List.nil_append, findLeaf, lineShape_newline]
      dsimp only
      rw [hrest]
      rfl

/-! ### The rendered value -/

/-- What is relied on of PyYAML for one value: what it emits is a scalar on one line that loads as
the value. -/
structure Emitter.Sound (y : Emitter) (load : Text → Text) (value : Text) : Prop where
  fast : plainIsFastSafe value = true → load value = value
  plain : y.plainIsSafe value = true → IsScalar value ∧ load value = value
  quoted : ∃ s, DoubleQuoted s ∧ y.quote value = '"' :: (s ++ ['"']) ∧
    (∀ c ∈ y.quote value, isBreak c = false) ∧ load (y.quote value) = value

theorem plainFastChar_spec {c : Char} (h : plainFastChar c = true) :
    isBreak c = false ∧ c ≠ '\t' ∧ c ≠ '#' ∧ c ≠ ':' := by
  have hne : ∀ d : Char, plainFastChar d = false → c ≠ d := by
    rintro d hd rfl
    rw [h] at hd
    cases hd
  refine ⟨?_, hne _ rfl, hne _ rfl, hne _ rfl⟩
  rw [plainFastChar, Bool.or_eq_true, decide_eq_true_eq] at h
  rcases h with h | h
  · exact not_isBreak_of_name (Or.inl h)
  · simp only [List.mem_cons, List.not_mem_nil, or_false] at h
    rcases h with rfl | rfl | rfl | rfl | rfl <;> rfl

/-- **The fast path emits plain scalars.** -/
theorem isScalar_of_fast (h : plainIsFastSafe value = true) : IsScalar value := by
  simp only [plainIsFastSafe, Bool.and_eq_true, List.all_eq_true] at h
  obtain ⟨⟨⟨hfirst, hlast⟩, -⟩, hall⟩ := h
  obtain ⟨c, cs, rfl⟩ : ∃ c cs, value = c :: cs := by
    cases value with
    | nil => cases hfirst
    | cons c cs => exact ⟨c, cs, rfl⟩
  have halpha : c.isAlpha = true := hfirst
  refine ⟨fun d hd => (plainFastChar_spec (hall d hd)).1, Or.inr (Or.inr ⟨⟨c, cs, rfl, ?_, ?_, ?_⟩,
    fun d hd => ?_, fun a b t ht => ?_, fun a t ht => ?_⟩)⟩
  · rw [Bool.eq_false_iff]
    intro hb
    rw [isBlank, Bool.or_eq_true, beq_iff_eq, beq_iff_eq] at hb
    rcases hb with rfl | rfl <;> cases halpha
  · intro hmem
    have hno : indicators.all (fun d => !d.isAlpha) = true := by decide
    have hc := List.all_eq_true.1 hno c hmem
    rw [halpha] at hc
    cases hc
  · intro hmem
    have hno : softIndicators.all (fun d => !d.isAlpha) = true := by decide
    have hc := List.all_eq_true.1 hno c hmem
    rw [halpha] at hc
    cases hc
  · rw [hd] at hlast
    have hsp : d ≠ ' ' := by simpa using hlast
    have htab := (plainFastChar_spec (hall d (List.mem_of_getLast? hd))).2.1
    simp [isBlank, hsp, htab]
  · have hmem : '#' ∈ c :: cs := by
      rw [ht]
      simp
    exact absurd rfl (plainFastChar_spec (hall '#' hmem)).2.2.1
  · have hmem : ':' ∈ c :: cs := by
      rw [ht]
      simp
    exact absurd rfl (plainFastChar_spec (hall ':' hmem)).2.2.2

theorem safeYamlScalar_spec {load : Text → Text} (hs : y.Sound load value)
    (hstrip : stripText value = value) :
    IsScalar (y.safeYamlScalar value) ∧
      stripText (y.safeYamlScalar value) = y.safeYamlScalar value ∧
        load (y.safeYamlScalar value) = value := by
  unfold Emitter.safeYamlScalar
  split
  · next h =>
    rw [Bool.or_eq_true] at h
    rcases h with h | h
    · exact ⟨isScalar_of_fast h, hstrip, hs.fast h⟩
    · exact ⟨(hs.plain h).1, hstrip, (hs.plain h).2⟩
  · obtain ⟨s, hd, hq, hline, hload⟩ := hs.quoted
    refine ⟨⟨hline, Or.inl ⟨s, hd, hq⟩⟩, ?_, hload⟩
    rw [hq]
    have hfront : ('"' :: (s ++ ['"'])).dropWhile Lines.isSpace = '"' :: (s ++ ['"']) := rfl
    rw [stripText, hfront, ← List.cons_append]
    exact List.rdropWhile_concat_neg _ _ _ (by decide)

/-! ### The block that is found -/

theorem findTopHeader_spec {key : Text} {start : ℕ} {body : List Text}
    (h : findTopHeader key i lines = .ok (some (start, body))) :
    ∃ front line, lines = front ++ line :: body ∧ start = i + front.length ∧
      ∃ r, headerRest key (content line) = some r := by
  induction lines generalizing i with
  | nil => cases h
  | cons l lines ih =>
    have hlater : findTopHeader key (i + 1) lines = .ok (some (start, body)) →
        ∃ front line, l :: lines = front ++ line :: body ∧ start = i + front.length ∧
          ∃ r, headerRest key (content line) = some r := by
      intro h'
      obtain ⟨front, line, rfl, rfl, hr⟩ := ih h'
      exact ⟨l :: front, line, rfl, by rw [List.length_cons]; omega, hr⟩
    rw [findTopHeader] at h
    split at h
    · exact hlater h
    · split at h
      · exact hlater h
      · next r hr =>
        split at h
        · cases h
          exact ⟨[], l, rfl, rfl, r, hr⟩
        · cases h

theorem scanBody_spec (indent : Option Text) (i : ℕ) (lines : List Text)
    (h : ∀ s, indent = some s → ∀ c ∈ s, Lines.isSpace c = true) :
    i ≤ (scanBody indent i lines).1 ∧
      ∀ c ∈ (scanBody indent i lines).2, Lines.isSpace c = true := by
  have hget : ∀ c ∈ indent.getD esphomeYamlIndent, Lines.isSpace c = true := by
    intro c hc
    cases indent with
    | none =>
      have hb : c = ' ' := by simpa [esphomeYamlIndent] using hc
      rw [hb]
      rfl
    | some s => exact h s rfl c hc
  induction lines generalizing i indent with
  | nil => exact ⟨Nat.le_refl _, hget⟩
  | cons l lines ih =>
    have hlater : ∀ {indent' : Option Text}, (∀ s, indent' = some s → ∀ c ∈ s,
        Lines.isSpace c = true) → (∀ c ∈ indent'.getD esphomeYamlIndent, Lines.isSpace c = true) →
        i ≤ (scanBody indent' (i + 1) lines).1 ∧
          ∀ c ∈ (scanBody indent' (i + 1) lines).2, Lines.isSpace c = true := fun h1 h2 => by
      have hrest := ih _ (i + 1) h1 h2
      exact ⟨by omega, hrest.2⟩
    rw [scanBody]
    split
    · exact hlater h hget
    · next c cs _ =>
      split
      · exact ⟨Nat.le_refl _, hget⟩
      · split
        · exact hlater h hget
        · have hnew : ∀ d ∈ (c :: cs).takeWhile Lines.isSpace, Lines.isSpace d = true :=
            fun d hd => List.mem_takeWhile_imp hd
          refine hlater (fun s hs => ?_) hnew
          cases hs
          exact hnew

theorem locateTopBlock_spec {b : TopBlock} (h : locateTopBlock lines block = .ok (some b)) :
    b.start < b.stop ∧ (∀ c ∈ b.indent, Lines.isSpace c = true) ∧
      ∃ front line body, lines = front ++ line :: body ∧ b.start = front.length ∧
        ∃ r, headerRest block (content line) = some r := by
  unfold locateTopBlock at h
  split at h
  · cases h
  · cases h
  · next start body hfind =>
    obtain ⟨front, line, hlines, hstart, hr⟩ := findTopHeader_spec hfind
    have hscan := scanBody_spec none (start + 1) body nofun
    cases h
    refine ⟨hscan.1, hscan.2, front, line, body, hlines, ?_, hr⟩
    simpa using hstart

/-! ### Where the walker is inside a block -/

/-- Only the block and deeper frames are open. -/
def Inside (n : ℕ) (block : Text) (stack : Frames) : Prop :=
  ∃ inner : Frames, stack = inner ++ [(0, block)] ∧ ∀ f ∈ inner, n ≤ f.1

theorem Inside.visit {n : ℕ} {stack : Frames} (h : Inside n block stack) (hn : 0 < n) {l : Text}
    (hl : lineShape word l = .gap ∨ n ≤ (leadingWs (content l)).length) :
    Inside n block (stack.visit word l) := by
  obtain ⟨inner, rfl, hinner⟩ := h
  have hdeep : ∀ {j}, (lineShape word l).depth? = some j → n ≤ j := by
    intro j hj
    rcases hl with hl | hl
    · rw [hl] at hj
      cases hj
    · rw [lineShape_depth hj]
      exact hl
  have hkeep : ∀ {j}, n ≤ j → Frames.enclosing (inner ++ [(0, block)]) j =
      inner.enclosing j ++ [(0, block)] := fun hj =>
    Frames.enclosing_outer (Nat.lt_of_lt_of_le hn hj)
  have hsub : ∀ {j}, ∀ f ∈ inner.enclosing j, n ≤ f.1 := fun f hf =>
    hinner f ((List.dropWhile_suffix _).subset hf)
  have hpush : ∀ {j} (key : Text), n ≤ j →
      Inside n block ((j, key) :: Frames.enclosing (inner ++ [(0, block)]) j) := by
    intro j key hj
    refine ⟨(j, key) :: inner.enclosing j, by rw [hkeep hj]; rfl, fun f hf => ?_⟩
    rcases List.mem_cons.1 hf with rfl | hf
    · exact hj
    · exact hsub f hf
  unfold Frames.visit
  cases hs : lineShape word l with
  | gap => exact ⟨inner, rfl, hinner⟩
  | item j => exact hpush _ (hdeep (by rw [hs]; rfl))
  | entry j m => exact hpush _ (hdeep (by rw [hs]; rfl))
  | other j => exact ⟨inner.enclosing j, hkeep (hdeep (by rw [hs]; rfl)), hsub⟩

theorem Inside.walk {n : ℕ} {stack : Frames} (h : Inside n block stack) (hn : 0 < n)
    (hl : ∀ l ∈ lines, lineShape word l = .gap ∨ n ≤ (leadingWs (content l)).length) :
    Inside n block (walk word stack lines) := by
  induction lines generalizing stack with
  | nil => exact h
  | cons l lines ih =>
    exact ih (h.visit hn (hl l List.mem_cons_self)) fun l' hl' =>
      hl l' (List.mem_cons_of_mem _ hl')

/-- **In a block that is indented evenly with blanks, a new line stands under the block.** -/
theorem openAt_of_even {b : TopBlock} (hblock : IsKey word block)
    (h : locateTopBlock lines block = .ok (some b)) {pos n : ℕ} (hpos : b.start < pos) (hn : 0 < n)
    (hindent : b.indent = List.replicate n ' ')
    (hbody : ∀ l ∈ (lines.take pos).drop (b.start + 1),
      lineShape word l = .gap ∨ n ≤ (leadingWs (content l)).length) :
    OpenAt word lines pos b.indent block := by
  obtain ⟨-, -, front, line, body, hlines, hstart, r, hr⟩ := locateTopBlock_spec h
  obtain ⟨t, ht⟩ : ∃ t, content line = block ++ [':'] ++ t := by
    unfold headerRest at hr
    split at hr
    · next hs => exact startsWith_iff.1 hs
    · cases hr
  have hshape : lineShape word line = .entry 0 ⟨[], block, t⟩ :=
    lineShape_header hblock (by rw [ht]; simp)
  have hblank : leadingWs b.indent = b.indent := by
    rw [leadingWs, List.takeWhile_eq_self_iff, hindent]
    intro c hc
    rw [List.eq_of_mem_replicate hc]
    rfl
  have hlen : (leadingWs b.indent).length = n := by rw [hblank, hindent, List.length_replicate]
  obtain ⟨d, rfl⟩ := Nat.exists_eq_add_of_lt hpos
  have htake : lines.take (b.start + d + 1) = front ++ line :: body.take d := by
    rw [hlines, hstart, Nat.add_assoc, List.take_length_add_append, List.take_succ_cons]
  have hrest : (lines.take (b.start + d + 1)).drop (b.start + 1) = body.take d := by
    rw [htake, hstart, List.drop_length_add_append]
    rfl
  have hall : ∀ stack : Frames, stack.enclosing 0 = [] := fun stack =>
    List.dropWhile_eq_nil_iff.2 fun f _ => by simp
  have hwalk : Inside n block (walk word [] (lines.take (b.start + d + 1))) := by
    have hsplit : walk word [] (front ++ line :: body.take d) =
        walk word ((walk word [] front).visit word line) (body.take d) := by
      simp [walk, List.foldl_append]
    have hhead : (walk word [] front).visit word line = [(0, block)] := by
      rw [Frames.visit, hshape]
      dsimp only
      rw [hall]
    rw [htake, hsplit, hhead]
    exact Inside.walk ⟨[], rfl, by simp⟩ hn (hrest ▸ hbody)
  refine ⟨fun c hc => ?_, ?_⟩
  · rw [hindent] at hc
    rw [List.eq_of_mem_replicate hc]
    rfl
  · obtain ⟨inner, hstack, hdeep⟩ := hwalk
    have hnil : inner.enclosing n = [] := List.dropWhile_eq_nil_iff.2 fun f hf => by
      simpa using hdeep f hf
    rw [hlen, hstack, Frames.enclosing_outer hn, hnil]
    rfl

/-! ### The upsert -/

/-- What the upsert leaves of the lines: all but the leaf's own, or all of them, with a line end
behind the last one. -/
inductive LinesKept (word : Char → Bool) (text block leaf result : Text) : Prop
  | replaced (i : ℕ) (m : KeyMatch) (line : Text) :
    leafOf word (targetPath word text [block, leaf]) (splitlines text) = some (i, m) →
    splitlines result = (splitlines text).set i line → LinesKept word text block leaf result
  | inserted (pos : ℕ) (line : Text) :
    splitlines result = (splitlines (normalizeTrailingNewline text)).take pos ++
      line :: (splitlines (normalizeTrailingNewline text)).drop pos →
    LinesKept word text block leaf result
  | prepended (pos : ℕ) (header line : Text) (gap : List Text) :
    content header = block ++ [':'] → gap = [] ∨ gap = [newlineStyle text] →
    splitlines result = (splitlines (normalizeTrailingNewline text)).take pos ++
      header :: line :: gap ++ (splitlines (normalizeTrailingNewline text)).drop pos →
    LinesKept word text block leaf result

/-- The walker, the line editor and the value fit together. -/
structure Editable (word : Char → Bool) (text block leaf w : Text) : Prop where
  ends : LeafEnds word text (targetPath word text [block, leaf])
  opens : readYamlScalar word text [block, leaf] = none →
    ∀ b, locateTopBlock (splitlines (normalizeTrailingNewline text)) block = .ok (some b) →
      OpenAt word (splitlines (normalizeTrailingNewline text))
        (trimTrailingBlanks (splitlines (normalizeTrailingNewline text)) b.start b.stop)
        b.indent block
  reference : targetPath word text [block, leaf] = [block, leaf] → NoReference word text block w

/-- **A settled text is left alone.** -/
theorem upsert_again (h : UpsertSettled word [block, leaf] (y.safeYamlScalar value) result) :
    upsertYamlLeafUnderTopBlock word y result block leaf value = .ok result := by
  unfold upsertYamlLeafUnderTopBlock
  dsimp only
  rw [if_pos h.read, rewriteNameOrSubstitution, h.again]

theorem targetPath_of_none (h : readYamlScalar word text path = none) :
    targetPath word text path = path := by
  rw [targetPath, h]
  rfl

theorem settled_of_upsert (hw : IsScalar (y.safeYamlScalar value))
    (hstrip : stripText (y.safeYamlScalar value) = y.safeYamlScalar value)
    (hblock : IsKey word block) (hleaf : IsKey word leaf)
    (hedit : Editable word text block leaf (y.safeYamlScalar value))
    (h : upsertYamlLeafUnderTopBlock word y text block leaf value = .ok result) :
    UpsertSettled word [block, leaf] (y.safeYamlScalar value) result ∧
      LinesKept word text block leaf result := by
  unfold upsertYamlLeafUnderTopBlock at h
  dsimp only at h
  split at h
  · next hread =>
    cases h
    obtain ⟨hsettled, i, m, line, hfind, hlines⟩ :=
      settled_of_read hread hw hstrip hedit.ends hedit.reference
    exact ⟨hsettled, .replaced i m line hfind hlines⟩
  · next hread =>
    have hnone : readYamlScalar word text [block, leaf] = none := by simpa using hread
    have href := hedit.reference (targetPath_of_none hnone)
    split at h
    · cases h
    · next hlocate =>
      obtain ⟨hsettled, gap, hgap, hlines⟩ :=
        settled_of_prepend hblock hleaf hw hstrip hnone href
      have htext : block ++ [':'] ++ newlineStyle text ++ esphomeYamlIndent ++ leaf ++ [':', ' '] ++
          y.safeYamlScalar value ++ newlineStyle text =
          block ++ [':'] ++ newlineStyle text ++
            ((newMatch esphomeYamlIndent leaf (y.safeYamlScalar value)).text
              (' ' :: y.safeYamlScalar value) ++ newlineStyle text) := by
        simp [KeyMatch.text, newMatch]
      have hheader : ∀ c ∈ block ++ [':'], isBreak c = false := fun c hc => by
        rcases List.mem_append.1 hc with hc | hc
        · exact hblock.oneLine c hc
        · rw [List.mem_singleton.1 hc]
          rfl
      cases h
      rw [htext]
      refine ⟨hsettled, .prepended _ _ _ gap ?_ hgap hlines⟩
      rw [content_append_nl, content_of_not_break hheader]
    · next located hlocate =>
      obtain ⟨hsettled, hlines⟩ := settled_of_insert hleaf hw hstrip
        (locateTopBlock_spec hlocate).2.1 (hedit.opens hnone located hlocate) hnone href
      have htext : located.indent ++ leaf ++ [':', ' '] ++ y.safeYamlScalar value ++
          newlineStyle text =
          (newMatch located.indent leaf (y.safeYamlScalar value)).text
            (' ' :: y.safeYamlScalar value) ++ newlineStyle text := by
        simp [KeyMatch.text, newMatch]
      cases h
      rw [htext]
      exact ⟨hsettled, .inserted _ _ hlines⟩

/-- **What an upsert does.** -/
theorem upsert_settles (word : Char → Bool) (y : Emitter) (load : Text → Text)
    (text block leaf value : Text) (hsound : y.Sound load value)
    (hstrip : stripText value = value) (hblock : IsKey word block) (hleaf : IsKey word leaf)
    (hedit : Editable word text block leaf (y.safeYamlScalar value)) :
    (∀ result, upsertYamlLeafUnderTopBlock word y text block leaf value = .ok result →
      (resolveLeaf word result [block, leaf]).map load = some value ∧
        LinesKept word text block leaf result ∧
        upsertYamlLeafUnderTopBlock word y result block leaf value = .ok result) ∧
    (∀ e, upsertYamlLeafUnderTopBlock word y text block leaf value = .error e →
      afterUpsert word y text block leaf value = text) := by
  obtain ⟨hw, hends, hload⟩ := safeYamlScalar_spec hsound hstrip
  constructor
  · intro result h
    obtain ⟨hsettled, hkept⟩ := settled_of_upsert hw hends hblock hleaf hedit h
    refine ⟨?_, hkept, upsert_again hsettled⟩
    rw [hsettled.resolves, Option.map_some, hload]
  · intro e h
    rw [afterUpsert, h]

theorem IsKey.of_check {word : Char → Bool} {key : Text}
    (h : (key.head?.any opensKey && key.tail.all (inKey word) && key.all fun c => !isBreak c) =
      true) : IsKey word key := by
  simp only [Bool.and_eq_true, List.all_eq_true, Bool.not_eq_true'] at h
  obtain ⟨⟨hfirst, hrest⟩, hline⟩ := h
  cases key with
  | nil => cases hfirst
  | cons c cs => exact ⟨⟨c, cs, rfl, hfirst, hrest⟩, hline⟩

/-- A friendly name below a name. -/
theorem upsert_settles_new_leaf :
    let word := fun c : Char => c.isAlphanum || c == '_'
    let result := "esphome:\n  name: lamp\n  friendly_name: Lamp\n".toList
    (resolveLeaf word result ["esphome".toList, "friendly_name".toList]).map stripYamlQuotes =
      some "Lamp".toList := by
  intro word result
  let y : Emitter := ⟨plainIsFastSafe, plainIsFastSafe, fun v => '"' :: (v ++ ['"', '\n'])⟩
  have hfast : plainIsFastSafe "Lamp".toList = true := by decide +kernel
  have hletters : DoubleQuoted "Lamp".toList :=
    .char (by decide) (by decide) (.char (by decide) (by decide)
      (.char (by decide) (by decide) (.char (by decide) (by decide) .nil)))
  have hsound : y.Sound stripYamlQuotes "Lamp".toList :=
    ⟨fun _ => by decide +kernel, fun _ => ⟨isScalar_of_fast hfast, by decide +kernel⟩,
      _, hletters, by decide +kernel, fun c hc => by
        have hall : (y.quote "Lamp".toList).all (fun c => !isBreak c) = true := by decide +kernel
        simpa using List.all_eq_true.1 hall c hc, by decide +kernel⟩
  have hnone : readYamlScalar word "esphome:\n  name: lamp\n".toList
      ["esphome".toList, "friendly_name".toList] = none := by decide +kernel
  have hedit : Editable word "esphome:\n  name: lamp\n".toList "esphome".toList
      "friendly_name".toList (y.safeYamlScalar "Lamp".toList) := by
    have hno : parseSubstitutionRef word (y.safeYamlScalar "Lamp".toList) = none := by
      decide +kernel
    refine ⟨fun i m h => ?_, fun _ b hb => ?_, fun _ var hvar => ?_⟩
    · rw [targetPath_of_none hnone] at h
      rw [readYamlScalar, h] at hnone
      cases hnone
    · have hlocate : locateTopBlock (splitlines (normalizeTrailingNewline
          "esphome:\n  name: lamp\n".toList)) "esphome".toList = .ok (some ⟨0, 2, [' ', ' ']⟩) := by
        decide +kernel
      rw [hlocate] at hb
      cases hb
      have heven : (((splitlines (normalizeTrailingNewline "esphome:\n  name: lamp\n".toList)).take
          2).drop 1).all (fun l => decide (2 ≤ (leadingWs (content l)).length)) = true := by
        decide +kernel
      exact openAt_of_even (n := 2) (IsKey.of_check (by decide +kernel)) hlocate (by decide +kernel)
        (by decide) rfl fun l hl => Or.inr (of_decide_eq_true (List.all_eq_true.1 heven l hl))
    · rw [hno] at hvar
      cases hvar
  exact ((upsert_settles word y stripYamlQuotes "esphome:\n  name: lamp\n".toList "esphome".toList
    "friendly_name".toList "Lamp".toList hsound (by decide +kernel)
    (IsKey.of_check (by decide +kernel)) (IsKey.of_check (by decide +kernel)) hedit).1 result
    (by decide +kernel)).1

/-- **A blank line comes with a new block.** -/
theorem upsert_adds_blank_line :
    let word := fun c : Char => c.isAlphanum || c == '_'
    let y : Emitter := ⟨plainIsFastSafe, plainIsFastSafe, fun v => '"' :: (v ++ ['"', '\n'])⟩
    upsertYamlLeafUnderTopBlock word y "wifi:\n".toList "esphome".toList "friendly_name".toList
        "Lamp".toList = .ok "esphome:\n  friendly_name: Lamp\n\nwifi:\n".toList ∧
      (splitlines "esphome:\n  friendly_name: Lamp\n\nwifi:\n".toList).length =
        (splitlines "wifi:\n".toList).length + 3 := by
  decide +kernel

end DeviceBuilder
