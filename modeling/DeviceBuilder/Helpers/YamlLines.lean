import DeviceBuilder.Lib.Patterns

/-!
# Lines of a YAML file

`helpers/yaml/scan.py` and `helpers/yaml/diff.py`: the scans over the lines of
a config file that the text edits share, and the splice that ends each edit.
Lines carry their terminators; a scan looks at `content`, the line without
line feeds and carriage returns at its end.

* `keyLine`, `keyScalar`: the two patterns of `key_line_res`.
* `findBlockHeader`, `blockEndIndex`, `childBlockEnd`, `topListItemStarts`.
* `spliceLines`: replace a span of lines; `applyYamlDiff_spliceLines` says that
  the diff it returns does the same to the text.
-/

namespace DeviceBuilder

open Lines

/-- The Unicode tables behind `str.isalpha`, and `str.isdecimal` with `int`. -/
structure CharTable where
  isalpha : Char → Bool
  decimal : Char → Option ℕ

/-- `int(text)` where `text.isdecimal()`. -/
def CharTable.int? (u : CharTable) (text : Text) : Option ℕ :=
  if text = [] then none
  else text.foldlM (fun n c => (u.decimal c).map (n * 10 + ·)) 0

/-! ### Single lines -/

/-- `ESPHOME_YAML_INDENT` of `helpers/yaml/scalar.py`. -/
def esphomeYamlIndent : Text := [' ', ' ']

/-- `text.lstrip(" ")`. -/
def lstripBlanks (s : Text) : Text := s.dropWhile (· == ' ')

/-- `leading_ws`. -/
def leadingWs (line : Text) : Text := line.takeWhile (· == ' ')

/-- `text.strip()`. -/
def stripText (s : Text) : Text := (s.dropWhile Lines.isSpace).rdropWhile Lines.isSpace

/-- `text.startswith(w)`. -/
def startsWith (s w : Text) : Bool := w.isPrefixOf s

/-- `opens_top_level_block`. -/
def opensTopLevelBlock (u : CharTable) : Text → Bool
  | [] => false
  | c :: _ => u.isalpha c || c == '.'

/-- `is_list_item_line`. -/
def isListItemLine (stripped : Text) : Bool :=
  startsWith stripped ['-', ' '] || stripped.rdropWhile (· == ' ') == ['-']

/-- What may follow `<key>:` in a header line: an anchor, a comment. -/
def headerTail : Pattern :=
  star Lines.isSpace
    (opt (fun k => lit ['&'] (plus nonSpace (star Lines.isSpace k)))
      (opt (fun k => lit ['#'] (star dot k)) eol))

/-- An inline value after `<key>:`. -/
def scalarTail : Pattern :=
  star Lines.isSpace fun s => s.head?.any fun c => nonSpace c && c != '#'

/-- `key_line_res(key, prefix=pre)[0]`. -/
def keyLine (pre : Pattern → Pattern) (key : Text) : Pattern :=
  pre (lit (key ++ [':']) headerTail)

/-- `key_line_res(key, prefix=pre)[1]`. -/
def keyScalar (pre : Pattern → Pattern) (key : Text) : Pattern :=
  pre (lit (key ++ [':']) scalarTail)

/-- `DASH_KEY_PREFIX`. -/
def dashKeyPrefix (k : Pattern) : Pattern := star Lines.isSpace (lit ['-'] (plus Lines.isSpace k))

/-- `key_header_re`. -/
def keyHeader (key indent : Text) : Pattern := keyLine (lit indent) key

/-! ### Scans -/

/-- `lines[idx]`. -/
def lineAt (lines : List Text) (idx : ℕ) : Text := lines.getD idx []

/-- The first index of `range(start, stop)` whose line meets `p`, else `stop`. -/
def firstIn (p : Text → Bool) (lines : List Text) (start stop : ℕ) : ℕ :=
  match ((lines.take stop).drop start).findIdx? p with
  | some n => start + n
  | none => stop

/-- Pull `stop` back, past `start + 1` at most, over lines that are not kept. -/
def pullBack (keep : Text → Bool) (lines : List Text) (start : ℕ) : ℕ → ℕ
  | 0 => 0
  | e + 1 => if start < e && !keep (lineAt lines e) then pullBack keep lines start e else e + 1

/-- `find_block_header`. -/
def findBlockHeader (lines : List Text) (key : Text) : Option ℕ :=
  lines.findIdx? fun l => keyHeader key [] (content l)

/-- `block_end_index`. -/
def blockEndIndex (u : CharTable) (lines : List Text) (start : ℕ) : ℕ :=
  firstIn (fun l => opensTopLevelBlock u (content l)) lines (start + 1) lines.length

/-- A blank line or a comment. -/
def isGap (l : Text) : Bool :=
  let stripped := lstripBlanks (content l)
  stripped == [] || startsWith stripped ['#']

/-- The line ends the child block whose key stands at `indent`. -/
def endsChild (indent : Text) (l : Text) : Bool :=
  let leading := (leadingWs (content l)).length
  !isGap l &&
    (leading < indent.length ||
      leading == indent.length && !isListItemLine (lstripBlanks (content l)))

/-- The line stays inside the child block whose key stands at `indent`. -/
def staysInside (indent : Text) (l : Text) : Bool :=
  let stripped := lstripBlanks (content l)
  stripped != [] &&
    (!startsWith stripped ['#'] || indent.length < (leadingWs (content l)).length)

/-- `child_block_end`. -/
def childBlockEnd (lines : List Text) (start endBound : ℕ) (indent : Text) : ℕ :=
  pullBack (staysInside indent) lines start
    (firstIn (endsChild indent) lines (start + 1) endBound)

/-- The dash lines of `range(start + 1, stop)`. -/
def dashLines (lines : List Text) (start stop : ℕ) : List ℕ :=
  (List.range' (start + 1) (stop - (start + 1))).filter fun idx =>
    isListItemLine (lstripBlanks (content (lineAt lines idx)))

/-- `top_list_item_starts`: the lines that open an item at the dash indent seen first. -/
def topListItemStarts (lines : List Text) (start stop : ℕ) : List ℕ :=
  match dashLines lines start stop with
  | [] => []
  | first :: rest => (first :: rest).filter fun idx =>
      leadingWs (content (lineAt lines idx)) == leadingWs (content (lineAt lines first))

/-- `trim_trailing_blanks`. -/
def trimTrailingBlanks (lines : List Text) (blockStart insertAt : ℕ) : ℕ :=
  pullBack (fun l => stripText l != []) lines blockStart insertAt

/-- `block_body_is_list` of `helpers/yaml/scalar.py`. -/
def blockBodyIsList (lines : List Text) (headerIdx endIdx : ℕ) : Bool :=
  let body := ((lines.take endIdx).drop (headerIdx + 1)).map stripText
  match body.find? fun s => !(s == [] || startsWith s ['#']) with
  | some s => startsWith s ['-', ' '] || s == ['-']
  | none => false

/-! ### Where the scans stop -/

theorem firstIn_le {p : Text → Bool} {lines : List Text} {start stop : ℕ} :
    firstIn p lines start stop ≤ stop := by
  unfold firstIn
  split
  · next n hn =>
    have hlt := (List.findIdx?_eq_some_iff_getElem.1 hn).1
    simp only [List.length_drop, List.length_take] at hlt
    omega
  · exact Nat.le_refl _

theorem le_firstIn {p : Text → Bool} {lines : List Text} {start stop : ℕ} (h : start ≤ stop) :
    start ≤ firstIn p lines start stop := by
  unfold firstIn
  split
  · exact Nat.le_add_right _ _
  · exact h

theorem lineAt_eq {lines : List Text} {i : ℕ} (h : i < lines.length) :
    lineAt lines i = lines[i] := by
  simp [lineAt, h]

theorem firstIn_before {p : Text → Bool} {lines : List Text} {start stop i : ℕ}
    (hs : start ≤ i) (hi : i < firstIn p lines start stop) (hl : i < lines.length) :
    p (lineAt lines i) = false := by
  rw [lineAt_eq hl]
  unfold firstIn at hi
  split at hi
  · next n hn =>
    obtain ⟨hlt, -, hb⟩ := List.findIdx?_eq_some_iff_getElem.1 hn
    have hj : i - start < n := by omega
    have := hb (i - start) hj
    simp only [List.getElem_drop, List.getElem_take] at this
    have he : start + (i - start) = i := by omega
    simpa [he] using this
  · next hn =>
    rw [List.findIdx?_eq_none_iff] at hn
    refine hn _ ?_
    have hmem : i - start < ((lines.take stop).drop start).length := by
      simp only [List.length_drop, List.length_take]
      omega
    have := List.getElem_mem hmem
    simp only [List.getElem_drop, List.getElem_take] at this
    have he : start + (i - start) = i := by omega
    simpa [he] using this

theorem pullBack_le {keep : Text → Bool} {lines : List Text} {start stop : ℕ} :
    pullBack keep lines start stop ≤ stop := by
  induction stop with
  | zero => exact Nat.le_refl _
  | succ e ih =>
    rw [pullBack]
    split
    · omega
    · exact Nat.le_refl _

theorem lt_pullBack {keep : Text → Bool} {lines : List Text} {start stop : ℕ}
    (h : start < stop) : start < pullBack keep lines start stop := by
  induction stop with
  | zero => cases h
  | succ e ih =>
    rw [pullBack]
    split
    · next hk =>
      rw [Bool.and_eq_true, decide_eq_true_eq] at hk
      exact ih hk.1
    · exact h

theorem pullBack_after {keep : Text → Bool} {lines : List Text} {start stop i : ℕ}
    (h : pullBack keep lines start stop ≤ i) (hi : i < stop) : keep (lineAt lines i) = false := by
  induction stop with
  | zero => cases hi
  | succ e ih =>
    rw [pullBack] at h
    split at h
    · next hk =>
      rcases Nat.lt_succ_iff_lt_or_eq.1 hi with hlt | rfl
      · exact ih h hlt
      · rw [Bool.and_eq_true] at hk
        simpa using hk.2
    · omega

/-! ### The splice -/

/-- `YamlDiff`: 1-based, and `toLine = fromLine - 1` is an insertion. -/
structure YamlDiff where
  fromLine : ℕ
  toLine : ℕ
  replacement : Text
  deriving DecidableEq, Repr

/-- `text.removesuffix(c)`. -/
def removeSuffix (c : Char) (text : Text) : Text :=
  if text.getLast? = some c then text.dropLast else text

/-- `_without_terminator`. -/
def withoutTerminator (text : Text) : Text := removeSuffix '\r' (removeSuffix '\n' text)

/-- `_ends_line`. -/
def endsLine (c : Char) : Bool := (splitlines [c, 'x']).length == 2

/-- The last character of `text` is there and ends a line. -/
def isTerminated (text : Text) : Bool := text.getLast?.all endsLine

/-- The splice reaches the end of a text whose last line lacks a terminator. -/
def openEnded (lines : List Text) (stop : ℕ) : Bool :=
  (lines.drop stop).flatten == [] && !(lines.getLast?.all isTerminated)

/-- `"\r\n"` where the first line ends so, else `"\n"`. -/
def newlineOf (lines : List Text) : Text :=
  if lines.head?.any (['\r', '\n'].isSuffixOf ·) then ['\r', '\n'] else ['\n']

/-- `splice_lines`. -/
def spliceLines (lines : List Text) (start stop : ℕ) (replacement : Text) : Text × YamlDiff :=
  let head := (lines.take start).flatten
  let tail := (lines.drop stop).flatten
  let body := withoutTerminator replacement
  let text :=
    if body = [] then
      (if openEnded lines stop then withoutTerminator head else head) ++ tail
    else
      (if isTerminated head then head else head ++ newlineOf lines) ++
        (if openEnded lines stop then body
          else body ++ if replacement.drop body.length = [] then newlineOf lines
            else replacement.drop body.length) ++ tail
  (text, ⟨start + 1, stop, replacement⟩)

/-- `apply_yaml_diff`; `none` is its `ValueError`. -/
def applyYamlDiff (text : Text) (diff : YamlDiff) : Option Text :=
  let lines := splitlines text
  if diff.toLine + 1 < diff.fromLine then none
  else if diff.fromLine < 1 || lines.length < diff.toLine then none
  else some (spliceLines lines (diff.fromLine - 1) diff.toLine diff.replacement).1

/-- **A splice and its diff agree**: the diff does to the text what the splice did to its lines. -/
theorem applyYamlDiff_spliceLines {text : Text} {start stop : ℕ} (hs : start ≤ stop)
    (hl : stop ≤ (splitlines text).length) (replacement : Text) :
    applyYamlDiff text (spliceLines (splitlines text) start stop replacement).2 =
      some (spliceLines (splitlines text) start stop replacement).1 := by
  have h1 : ¬ stop + 1 < start + 1 := by omega
  have h2 : ¬ (splitlines text).length < stop := by omega
  simp [applyYamlDiff, spliceLines, h1, h2]

/-! ### The lines after a splice -/

theorem endsLine_eq (c : Char) : endsLine c = isBreak c := by
  unfold endsLine
  cases h : isBreak c with
  | true =>
    rw [splitlines_cons_of_break h (fun hs => by cases hs.2)]
    rfl
  | false =>
    rw [splitlines_cons_of_not_break h]
    rfl

theorem isTerminated_append_of_break {l : Text} {c : Char} (h : isBreak c = true) :
    isTerminated (l ++ [c]) = true := by
  simp [isTerminated, endsLine_eq, h]

theorem isTerminated_of_ended {l m : Text} (h : Ended l) : isTerminated (m ++ l) = true := by
  obtain ⟨b, -, rfl | ⟨c, hc, rfl⟩⟩ := h
  · have : m ++ (b ++ ['\r', '\n']) = (m ++ b ++ ['\r']) ++ ['\n'] := by simp
    rw [this]
    exact isTerminated_append_of_break rfl
  · rw [← List.append_assoc]
    exact isTerminated_append_of_break hc

theorem not_isTerminated_of_unended {l m : Text} (h : Unended l) :
    isTerminated (m ++ l) = false := by
  obtain ⟨hne, hb⟩ := h
  have hl := List.getLast_mem hne
  simp [isTerminated, endsLine_eq, List.getLast?_append, List.getLast?_eq_getLast_of_ne_nil hne,
    hb _ hl]

/-- Lines put in front of others: the last of them gets a terminator where it lacks one. -/
theorem exists_ended {ls : List Text} (h : Cut ls) (nl : Text)
    (hn : nl = ['\n'] ∨ nl = ['\r', '\n']) :
    ∃ ls', ls'.flatten = (if isTerminated ls.flatten then ls.flatten else ls.flatten ++ nl) ∧
      Cut ls' ∧ (∀ l ∈ ls', Ended l) ∧ ls'.map content = ls.map content := by
  rcases List.eq_nil_or_concat ls with rfl | ⟨a, l, rfl⟩
  · exact ⟨[], rfl, trivial, nofun, rfl⟩
  · rw [List.concat_eq_append] at h
    have hae : ∀ m ∈ a, Ended m := fun m hm => Cut.ended h (List.cons_ne_nil _ _) hm
    simp only [List.concat_eq_append, List.flatten_append, List.flatten_singleton]
    rcases Cut.ended_or h (List.mem_append_right a (List.mem_singleton_self l)) with hl | hl
    · refine ⟨a ++ [l], ?_, h, fun m hm => ?_, rfl⟩
      · rw [if_pos (isTerminated_of_ended hl)]
        simp
      · rcases List.mem_append.1 hm with hm | hm
        · exact hae m hm
        · exact List.mem_singleton.1 hm ▸ hl
    · have hl' : Ended (l ++ nl) ∧ content (l ++ nl) = content l := by
        rcases hn with rfl | rfl
        · exact ⟨⟨l, hl.2, Or.inr ⟨'\n', rfl, rfl⟩⟩, content_append_newline l⟩
        · exact ⟨⟨l, hl.2, Or.inl rfl⟩, content_append_crlf l⟩
      refine ⟨a ++ [l ++ nl], ?_, cut_append h.left (Or.inl hl'.1) hae ?_, fun m hm => ?_, ?_⟩
      · rw [if_neg (by simp [not_isTerminated_of_unended hl])]
        simp
      · intro m n hm hn' hs
        cases hn'
        obtain ⟨c, l, rfl⟩ := List.exists_cons_of_ne_nil hl.1
        have hc := hl.2 c List.mem_cons_self
        have hs2 : some c = some '\n' := hs.2
        rw [Option.some.inj hs2] at hc
        cases hc
      · rcases List.mem_append.1 hm with hm | hm
        · exact hae m hm
        · exact List.mem_singleton.1 hm ▸ hl'.1
      · rw [List.map_append, List.map_append, List.map_singleton, List.map_singleton, hl'.2]

/-- `text` as the lines of a replacement: each of them gets a line feed. -/
def linesText (rs : List Text) : Text := (rs.map (· ++ ['\n'])).flatten

theorem withoutTerminator_linesText {rs : List Text} {last : Text}
    (h : ∀ r ∈ rs ++ [last], ∀ c ∈ r, isBreak c = false) :
    withoutTerminator (linesText (rs ++ [last])) = linesText rs ++ last := by
  have h1 : linesText (rs ++ [last]) = (linesText rs ++ last) ++ ['\n'] := by simp [linesText]
  have hr : (linesText rs ++ last).getLast? ≠ some '\r' := by
    intro hl
    rcases List.mem_append.1 (List.mem_of_getLast? hl) with hm | hm
    · obtain ⟨l, hl, hm⟩ := List.mem_flatten.1 hm
      obtain ⟨r, hr, rfl⟩ := List.mem_map.1 hl
      rcases List.mem_append.1 hm with hm | hm
      · have := h r (List.mem_append_left _ hr) _ hm
        cases this
      · cases List.mem_singleton.1 hm
    · have := h last (List.mem_append_right _ (List.mem_singleton_self _)) _ hm
      cases this
  have h2 : removeSuffix '\n' (linesText rs ++ last ++ ['\n']) = linesText rs ++ last := by
    simp [removeSuffix]
  rw [h1, withoutTerminator, h2, removeSuffix, if_neg hr]

/-- The text before a splice, with a terminator at its end. -/
def headText (lines : List Text) (start : ℕ) : Text :=
  let head := (lines.take start).flatten
  if isTerminated head then head else head ++ newlineOf lines

/-- The lines that a splice puts in. Where the text stays open the last of them has no terminator,
and is none where it is blank. -/
def rowsOf (open_ : Bool) (rs : List Text) : List Text :=
  if open_ then rs.dropLast.map (· ++ ['\n']) ++ rs.getLast?.toList.filter (· != [])
  else rs.map (· ++ ['\n'])

theorem content_rows {rs : List Text} (h : ∀ r ∈ rs, ∀ c ∈ r, isBreak c = false) :
    (rs.map (· ++ ['\n'])).map content = rs := by
  rw [List.map_map]
  refine (List.map_congr_left fun r hr => ?_).trans (List.map_id rs)
  exact (content_append_newline r).trans (content_of_not_break (h r hr))

theorem rowsOf_concat (open_ : Bool) (init : List Text) (last : Text) :
    rowsOf open_ (init ++ [last]) =
      init.map (· ++ ['\n']) ++
        if open_ then (if last = [] then [] else [last]) else [last ++ ['\n']] := by
  cases open_ with
  | false => simp [rowsOf]
  | true =>
    have hf : [last].filter (· != []) = if last = [] then [] else [last] := by
      by_cases hl : last = [] <;> simp [hl]
    simp [rowsOf, hf]

/-- Lines with a last line. -/
theorem exists_last {rs : List Text} (h : rs ≠ []) : ∃ init last, rs = init ++ [last] := by
  rcases List.eq_nil_or_concat rs with h' | ⟨a, l, h'⟩
  · exact absurd h' h
  · exact ⟨a, l, by rw [h', List.concat_eq_append]⟩

theorem cut_rowsOf (open_ : Bool) {rs : List Text} (h : ∀ r ∈ rs, ∀ c ∈ r, isBreak c = false) :
    Cut (rowsOf open_ rs) := by
  by_cases hne : rs = []
  · subst hne
    cases open_ <;> trivial
  obtain ⟨init, last, rfl⟩ := exists_last hne
  have hi : ∀ r ∈ init, ∀ c ∈ r, isBreak c = false := fun r hr =>
    h r (List.mem_append_left _ hr)
  have hl : ∀ c ∈ last, isBreak c = false := h last (by simp)
  rw [rowsOf_concat]
  refine cut_append (cut_map_newline hi) ?_ (fun l hl => ?_) fun l m hl _ hs => ?_
  · split
    · split
      · trivial
      · next h0 => exact Or.inr ⟨h0, hl⟩
    · exact Or.inl ⟨last, hl, Or.inr ⟨'\n', rfl, rfl⟩⟩
  · obtain ⟨r, hr, rfl⟩ := List.mem_map.1 hl
    exact ⟨r, hi r hr, Or.inr ⟨'\n', rfl, rfl⟩⟩
  · obtain ⟨r, -, rfl⟩ := List.mem_map.1 (List.mem_of_getLast? hl)
    have h1 := hs.1
    rw [List.getLast?_append] at h1
    cases h1

/-- The text after a splice of lines. -/
theorem spliceLines_linesText (lines : List Text) (start stop : ℕ) {first : Text}
    {rest : List Text} (hf : first ≠ []) (hb : ∀ r ∈ first :: rest, ∀ c ∈ r, isBreak c = false) :
    (spliceLines lines start stop (linesText (first :: rest))).1 =
      headText lines start ++ ((rowsOf (openEnded lines stop) (first :: rest)).flatten ++
        (lines.drop stop).flatten) := by
  obtain ⟨init, last, hil⟩ := exists_last (List.cons_ne_nil first rest)
  have hbody : withoutTerminator (linesText (first :: rest)) = linesText init ++ last := by
    rw [hil] at hb ⊢
    exact withoutTerminator_linesText hb
  have hne : linesText init ++ last ≠ [] := by
    cases init with
    | nil =>
      cases hil
      simpa [linesText] using hf
    | cons r init => simp [linesText]
  have hsplit : linesText (first :: rest) = (linesText init ++ last) ++ ['\n'] := by
    rw [hil]
    simp [linesText]
  have hrows : (rowsOf (openEnded lines stop) (first :: rest)).flatten =
      linesText init ++ last ++ if openEnded lines stop then [] else ['\n'] := by
    rw [hil, rowsOf_concat]
    by_cases hl : last = [] <;> cases openEnded lines stop <;> simp [linesText, hl]
  rw [hrows]
  simp only [spliceLines, headText]
  rw [hbody, if_neg hne, hsplit, List.drop_left, if_neg (List.cons_ne_nil _ _)]
  cases openEnded lines stop <;> simp

/-- **The lines after a splice**: those before, the lines spliced in and those after. The last of
those before gets a terminator where it lacks one. -/
theorem lines_spliceLines (text : Text) (start stop : ℕ) {first : Text} {rest : List Text}
    (hf : first ≠ []) (hb : ∀ r ∈ first :: rest, ∀ c ∈ r, isBreak c = false) :
    ∃ front,
      splitlines (spliceLines (splitlines text) start stop (linesText (first :: rest))).1 =
        front ++ (rowsOf (openEnded (splitlines text) stop) (first :: rest) ++
          (splitlines text).drop stop) ∧
      front.flatten = headText (splitlines text) start ∧ Cut front ∧ (∀ l ∈ front, Ended l) ∧
      front.map content = ((splitlines text).take start).map content := by
  have hcut := cut_splitlines text
  generalize splitlines text = lines at *
  have hA : Cut (lines.take start) := (List.take_append_drop start lines ▸ hcut).left
  have hB : Cut (lines.drop stop) := (List.take_append_drop stop lines ▸ hcut).right
  obtain ⟨A, hAf, hAc, hAe, hAm⟩ := exists_ended hA (newlineOf lines) (by
    unfold newlineOf
    split
    · exact Or.inr rfl
    · exact Or.inl rfl)
  have htext : (spliceLines lines start stop (linesText (first :: rest))).1 =
      (A ++ (rowsOf (openEnded lines stop) (first :: rest) ++ lines.drop stop)).flatten := by
    rw [List.flatten_append, List.flatten_append, hAf, spliceLines_linesText _ _ _ hf hb]
    rfl
  have hback : Cut (rowsOf (openEnded lines stop) (first :: rest) ++ lines.drop stop) := by
    cases ho : openEnded lines stop with
    | false =>
      refine cut_append (cut_rowsOf false hb) hB (fun l hl => ?_) fun l m hl _ hs => ?_
      · obtain ⟨r, hr, rfl⟩ := List.mem_map.1 hl
        exact ⟨r, hb r hr, Or.inr ⟨'\n', rfl, rfl⟩⟩
      · obtain ⟨r, -, rfl⟩ := List.mem_map.1 (List.mem_of_getLast? hl)
        have h1 := hs.1
        rw [List.getLast?_append] at h1
        cases h1
    | true =>
      have hB0 : lines.drop stop = [] := by
        cases hd : lines.drop stop with
        | nil => rfl
        | cons m ms =>
          have hflat : (lines.drop stop).flatten = [] := by
            have := (Bool.and_eq_true_iff.1 ho).1
            simpa using this
          rw [hd] at hB hflat
          exact absurd (List.append_eq_nil_iff.1 hflat).1 hB.head_ne_nil
      rw [hB0, List.append_nil]
      exact cut_rowsOf true hb
  refine ⟨A, ?_, hAf, hAc, hAe, hAm⟩
  rw [htext, splitlines_of_cut (cut_append hAc hback hAe ?_)]
  rintro l m - hm ⟨-, hs⟩
  -- the new lines open with a character of the first of them
  obtain ⟨c, f, rfl⟩ := List.exists_cons_of_ne_nil hf
  have hm' : m.head? = some c := by
    obtain ⟨init, last, hil⟩ := exists_last (List.cons_ne_nil (c :: f) rest)
    rw [hil, rowsOf_concat] at hm
    cases init with
    | nil =>
      cases hil
      split at hm <;> cases hm <;> rfl
    | cons r init =>
      cases hil
      cases hm
      rfl
  rw [hm'] at hs
  cases hs
  have hc := hb _ List.mem_cons_self '\n' List.mem_cons_self
  cases hc

theorem content_rowsOf {open_ : Bool} {init : List Text} {last : Text} (hl : last ≠ [])
    (hb : ∀ r ∈ init ++ [last], ∀ c ∈ r, isBreak c = false) :
    (rowsOf open_ (init ++ [last])).map content = init ++ [last] := by
  have hi : ∀ r ∈ init, ∀ c ∈ r, isBreak c = false := fun r hr =>
    hb r (List.mem_append_left _ hr)
  have hlast : content last = last := content_of_not_break (hb last (by simp))
  rw [rowsOf_concat, List.map_append, content_rows hi, if_neg hl]
  split
  · rw [List.map_singleton, hlast]
  · rw [List.map_singleton, content_append_newline, hlast]

end DeviceBuilder
