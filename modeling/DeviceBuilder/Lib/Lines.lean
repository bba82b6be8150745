import Mathlib.Data.List.Basic
import Mathlib.Data.List.DropRight
import Mathlib.Data.Nat.Notation

/-!
# Texts and their lines

A text is a list of characters. `splitlines` cuts it after every line boundary,
as Python's `str.splitlines(keepends=True)` does: `\r\n` is one boundary, and so
are the separators of Unicode.

* `splitlines_flatten`: the lines of a text put together are the text.
* `Cut`: the lists of lines that `splitlines` returns; `splitlines_of_cut` says
  that such a list is the lines of the text it makes up.
* `content`: a line without the line feeds and carriage returns at its end;
  `lineEnd`: the boundary at its end.
* `Cut.set`: another line in the place of one.
-/

namespace Lines

abbrev Text := List Char

/-- A boundary of `str.splitlines`. -/
def isBreak (c : Char) : Bool :=
  c ∈ ['\n', '\r', '\x0b', '\x0c', '\x1c', '\x1d', '\x1e', '\u0085', '\u2028', '\u2029']

/-- `str.isspace` of one character. -/
def isSpace (c : Char) : Bool :=
  ('\t' ≤ c && c ≤ '\r') || ('\x1c' ≤ c && c ≤ ' ') ||
    c ∈ ['\u0085', '\u00a0', '\u1680', '\u2028', '\u2029', '\u202f', '\u205f', '\u3000'] ||
    ('\u2000' ≤ c && c ≤ '\u200a')

/-- A property of each character of a text, from a run over it. -/
theorem forall_of_all {p : Char → Prop} [DecidablePred p] {text : Text}
    (h : text.all (fun c => decide (p c)) = true) : ∀ c ∈ text, p c := by
  intro c hc
  exact of_decide_eq_true (List.all_eq_true.1 h c hc)

/-- Put a character in front of the first line. -/
def onFirst (c : Char) : List Text → List Text
  | [] => [[c]]
  | l :: ls => (c :: l) :: ls

/-- `text.splitlines(keepends=True)`. -/
def splitlines : Text → List Text
  | [] => []
  | '\r' :: '\n' :: cs => ['\r', '\n'] :: splitlines cs
  | c :: cs => if isBreak c then [c] :: splitlines cs else onFirst c (splitlines cs)

/-- A line that ends in a boundary. -/
def Ended (l : Text) : Prop :=
  ∃ b : Text, (∀ c ∈ b, isBreak c = false) ∧
    (l = b ++ ['\r', '\n'] ∨ ∃ c, isBreak c = true ∧ l = b ++ [c])

/-- A last line without a boundary. -/
def Unended (l : Text) : Prop := l ≠ [] ∧ ∀ c ∈ l, isBreak c = false

/-- A carriage return followed by a line feed is no place to cut. -/
def Seam (l m : Text) : Prop := l.getLast? = some '\r' ∧ m.head? = some '\n'

/-- Lines as `splitlines` cuts them. -/
def Cut : List Text → Prop
  | [] => True
  | [l] => Ended l ∨ Unended l
  | l :: m :: ls => Ended l ∧ ¬ Seam l m ∧ Cut (m :: ls)

theorem flatten_onFirst (c : Char) (ls : List Text) :
    (onFirst c ls).flatten = c :: ls.flatten := by
  cases ls <;> rfl

/-- **The lines of a text make up the text.** -/
theorem splitlines_flatten (t : Text) : (splitlines t).flatten = t := by
  induction t using splitlines.induct with
  | case1 => rfl
  | case2 cs ih => simp [splitlines, ih]
  | case3 c cs hn hb ih =>
    rw [splitlines, if_pos hb, List.flatten_cons, ih, List.singleton_append]
    exact hn
  | case4 c cs hn hb ih =>
    rw [splitlines, if_neg hb, flatten_onFirst, ih]
    exact hn

/-! ### The lines of a concatenation -/

theorem splitlines_cons_of_not_break {c : Char} (h : isBreak c = false) (t : Text) :
    splitlines (c :: t) = onFirst c (splitlines t) := by
  rw [splitlines, if_neg (by simp [h])]
  rintro _ rfl _
  cases h

theorem splitlines_cons_of_break {c : Char} (h : isBreak c = true) {t : Text}
    (hs : ¬ (c = '\r' ∧ t.head? = some '\n')) : splitlines (c :: t) = [c] :: splitlines t := by
  rw [splitlines, if_pos h]
  rintro cs rfl rfl
  exact hs ⟨rfl, rfl⟩

/-- Without a boundary a text is one line. -/
theorem splitlines_append_of_not_break {b : Text} (h : ∀ c ∈ b, isBreak c = false) {l t : Text}
    {ls : List Text} (ht : splitlines t = l :: ls) : splitlines (b ++ t) = (b ++ l) :: ls := by
  induction b with
  | nil => exact ht
  | cons c b ih =>
    have hb : splitlines (b ++ t) = (b ++ l) :: ls := ih fun x hx => h x (List.mem_cons_of_mem _ hx)
    rw [List.cons_append, splitlines_cons_of_not_break (h c List.mem_cons_self), hb]
    rfl

theorem splitlines_unended {l : Text} (h : Unended l) : splitlines l = [l] := by
  obtain ⟨hne, hl⟩ := h
  induction l with
  | nil => exact absurd rfl hne
  | cons c b ih =>
    rw [splitlines_cons_of_not_break (hl c List.mem_cons_self)]
    cases b with
    | nil => rfl
    | cons d b => rw [ih (List.cons_ne_nil _ _) fun x hx => hl x (List.mem_cons_of_mem _ hx)]; rfl

/-- An ended line is cut off what follows it, unless that would cut `\r\n`. -/
theorem splitlines_ended_append {l : Text} (h : Ended l) {t : Text} (hs : ¬ Seam l t) :
    splitlines (l ++ t) = l :: splitlines t := by
  obtain ⟨b, hb, rfl | ⟨c, hc, rfl⟩⟩ := h
  · rw [List.append_assoc]
    exact splitlines_append_of_not_break hb rfl
  · rw [List.append_assoc]
    refine splitlines_append_of_not_break hb (splitlines_cons_of_break hc ?_)
    rintro ⟨rfl, ht⟩
    exact hs ⟨by simp, ht⟩

theorem Ended.ne_nil {l : Text} (h : Ended l) : l ≠ [] := by
  obtain ⟨b, -, rfl | ⟨c, -, rfl⟩⟩ := h <;> simp

theorem Cut.tail {l : Text} {ls : List Text} (h : Cut (l :: ls)) : Cut ls := by
  cases ls with
  | nil => trivial
  | cons m ls => exact h.2.2

theorem Cut.head_ne_nil {l : Text} {ls : List Text} (h : Cut (l :: ls)) : l ≠ [] := by
  cases ls with
  | nil => exact h.elim Ended.ne_nil (·.1)
  | cons m ls => exact h.1.ne_nil

/-- **Lines that can be the lines of a text are those of the text they make up.** -/
theorem splitlines_of_cut {ls : List Text} (h : Cut ls) : splitlines ls.flatten = ls := by
  induction ls with
  | nil => rfl
  | cons l ls ih =>
    cases ls with
    | nil =>
      rw [List.flatten_cons, List.flatten_nil]
      rcases h with h | h
      · rw [splitlines_ended_append h fun hs => by cases hs.2]
        rfl
      · rw [List.append_nil, splitlines_unended h]
    | cons m ls =>
      obtain ⟨hl, hs, hrest⟩ := h
      rw [List.flatten_cons, splitlines_ended_append hl ?_, ih hrest]
      obtain ⟨c, m, rfl⟩ := List.exists_cons_of_ne_nil hrest.head_ne_nil
      exact hs

theorem cut_cons {l : Text} {ls : List Text} (hl : Ended l)
    (hs : ∀ m, ls.head? = some m → ¬ Seam l m) (h : Cut ls) : Cut (l :: ls) := by
  cases ls with
  | nil => exact Or.inl hl
  | cons m ls => exact ⟨hl, hs m rfl, h⟩

theorem head?_head_splitlines (t : Text) {m : Text} (h : (splitlines t).head? = some m) :
    m.head? = t.head? := by
  induction t using splitlines.induct with
  | case1 => cases h
  | case2 cs ih => cases h; rfl
  | case3 c cs hn hb ih =>
    rw [splitlines, if_pos hb] at h
    · cases h
      rfl
    · exact hn
  | case4 c cs hn hb ih =>
    rw [splitlines, if_neg hb] at h
    · cases hc : splitlines cs <;> rw [hc] at h <;> cases h <;> rfl
    · exact hn

theorem cut_splitlines (t : Text) : Cut (splitlines t) := by
  induction t using splitlines.induct with
  | case1 => trivial
  | case2 cs ih =>
    exact cut_cons ⟨[], nofun, Or.inl rfl⟩ (fun _ _ hs => absurd hs.1 (by decide)) ih
  | case3 c cs hn hb ih =>
    rw [splitlines, if_pos hb]
    · refine cut_cons ⟨[], nofun, Or.inr ⟨c, hb, rfl⟩⟩ (fun m hm hs => ?_) ih
      obtain ⟨hr, hf⟩ := hs
      rw [head?_head_splitlines cs hm] at hf
      cases cs with
      | nil => cases hf
      | cons d cs =>
        cases hr
        cases hf
        exact hn cs rfl rfl
    · exact hn
  | case4 c cs hn hb ih =>
    rw [splitlines, if_neg hb]
    · have hc : isBreak c = false := by simpa using hb
      cases hcs : splitlines cs with
      | nil => exact Or.inr ⟨List.cons_ne_nil _ _, by simpa using hc⟩
      | cons l ls =>
        rw [hcs] at ih
        have grow : Ended l → Ended (c :: l) := by
          rintro ⟨b, hb, h⟩
          refine ⟨c :: b, by simpa [hc] using hb, ?_⟩
          rcases h with rfl | ⟨d, hd, rfl⟩
          · exact Or.inl rfl
          · exact Or.inr ⟨d, hd, rfl⟩
        cases ls with
        | nil =>
          rcases ih with ih | ⟨-, ih⟩
          · exact Or.inl (grow ih)
          · exact Or.inr ⟨List.cons_ne_nil _ _, by simpa [hc] using ih⟩
        | cons m ls =>
          obtain ⟨hl, hs, hrest⟩ := ih
          refine ⟨grow hl, fun h => hs ⟨?_, h.2⟩, hrest⟩
          obtain ⟨d, l, rfl⟩ := List.exists_cons_of_ne_nil hl.ne_nil
          simpa using h.1
    · exact hn

/-! ### Parts of the lines of a text -/

theorem Cut.right {a b : List Text} (h : Cut (a ++ b)) : Cut b := by
  induction a with
  | nil => exact h
  | cons l a ih => exact ih (Cut.tail h)

theorem Cut.left {a b : List Text} (h : Cut (a ++ b)) : Cut a := by
  induction a with
  | nil => trivial
  | cons l a ih =>
    cases a with
    | nil =>
      cases b with
      | nil => exact h
      | cons m b => exact Or.inl h.1
    | cons m a => exact ⟨h.1, h.2.1, ih h.2.2⟩

/-- Only the last line can lack a boundary. -/
theorem Cut.ended {a b : List Text} (h : Cut (a ++ b)) (hb : b ≠ []) {l : Text} (hl : l ∈ a) :
    Ended l := by
  induction a with
  | nil => cases hl
  | cons m a ih =>
    have hm : Ended m := by
      cases a with
      | nil =>
        obtain ⟨n, b, rfl⟩ := List.exists_cons_of_ne_nil hb
        exact h.1
      | cons n a => exact h.1
    rcases List.mem_cons.1 hl with rfl | hl
    · exact hm
    · exact ih (Cut.tail h) hl

theorem cut_append {a b : List Text} (ha : Cut a) (hb : Cut b) (he : ∀ l ∈ a, Ended l)
    (hs : ∀ l m, a.getLast? = some l → b.head? = some m → ¬ Seam l m) : Cut (a ++ b) := by
  induction a with
  | nil => exact hb
  | cons l a ih =>
    refine cut_cons (he l List.mem_cons_self) (fun m hm => ?_)
      (ih (Cut.tail ha) (fun l' h => he l' (List.mem_cons_of_mem _ h)) fun l' m hl hm =>
        hs l' m (by rw [List.getLast?_cons, hl]; rfl) hm)
    cases a with
    | nil => exact hs l m rfl hm
    | cons n a =>
      cases hm
      exact ha.2.1

theorem Cut.ended_or {ls : List Text} (h : Cut ls) {l : Text} (hl : l ∈ ls) :
    Ended l ∨ Unended l := by
  induction ls with
  | nil => cases hl
  | cons m ls ih =>
    rcases List.mem_cons.1 hl with rfl | hl
    · cases ls with
      | nil => exact h
      | cons n ls => exact Or.inl h.1
    · exact ih (Cut.tail h) hl

/-- Lines that each get a line feed. -/
theorem cut_map_newline {rs : List Text} (h : ∀ r ∈ rs, ∀ c ∈ r, isBreak c = false) :
    Cut (rs.map (· ++ ['\n'])) := by
  induction rs with
  | nil => trivial
  | cons r rs ih =>
    have hr : Ended (r ++ ['\n']) := ⟨r, h r List.mem_cons_self, Or.inr ⟨'\n', rfl, rfl⟩⟩
    refine cut_cons hr (fun m _ hs => ?_) (ih fun s hs => h s (List.mem_cons_of_mem _ hs))
    have h1 := hs.1
    rw [List.getLast?_append] at h1
    cases h1

/-! ### The content of a line -/

/-- `line.rstrip("\n\r")`. -/
def content (l : Text) : Text := l.rdropWhile (· ∈ ['\n', '\r'])

theorem content_append_newline (r : Text) : content (r ++ ['\n']) = content r := by
  unfold content
  rw [List.rdropWhile_concat]
  rfl

theorem content_append_crlf (r : Text) : content (r ++ ['\r', '\n']) = content r := by
  have hr : r ++ ['\r', '\n'] = (r ++ ['\r']) ++ ['\n'] := by simp
  unfold content
  rw [hr, List.rdropWhile_concat, if_pos (by decide), List.rdropWhile_concat, if_pos (by decide)]

theorem content_of_not_break {r : Text} (h : ∀ c ∈ r, isBreak c = false) : content r = r := by
  unfold content
  rw [List.rdropWhile_eq_self_iff]
  intro hne hlast
  have hb := h _ (List.getLast_mem hne)
  have hd : ∀ c : Char, decide (c ∈ ['\n', '\r']) = true → isBreak c = true := by
    intro c hc
    rcases List.mem_cons.1 (of_decide_eq_true hc) with rfl | hc
    · rfl
    · rw [List.mem_singleton.1 hc]
      rfl
  rw [hd _ hlast] at hb
  cases hb

/-! ### Spans of lines -/

/-- Cut a span of lines in two. -/
theorem slice_split {α : Type*} (l : List α) {a b c : ℕ} (hab : a ≤ b) (hbc : b ≤ c) :
    (l.take c).drop a = (l.take b).drop a ++ (l.take c).drop b := by
  have h : l.take c = l.take b ++ (l.take c).drop b := by
    conv_lhs => rw [← List.take_append_drop b (l.take c), List.take_take, Nat.min_eq_left hbc]
  by_cases hl : a ≤ (l.take b).length
  · conv_lhs => rw [h]
    exact List.drop_append_of_le_length hl
  · rw [List.length_take] at hl
    have h1 : (l.take c).drop a = [] := List.drop_eq_nil_of_le (by simp; omega)
    have h2 : (l.take b).drop a = [] := List.drop_eq_nil_of_le (by simp; omega)
    have h3 : (l.take c).drop b = [] := List.drop_eq_nil_of_le (by simp; omega)
    rw [h1, h2, h3]
    rfl

theorem mem_slice {α : Type*} {l : List α} {a b : ℕ} {x : α} (h : x ∈ (l.take b).drop a) :
    ∃ i, ∃ hi : i < l.length, a ≤ i ∧ i < b ∧ l[i] = x := by
  obtain ⟨j, hj, rfl⟩ := List.getElem_of_mem h
  simp only [List.length_drop, List.length_take] at hj
  refine ⟨a + j, by omega, by omega, by omega, ?_⟩
  simp

/-! ### The end of a line -/

/-- The boundary at the end of a line. -/
def lineEnd (l : Text) : Text :=
  if ['\r', '\n'].isSuffixOf l then ['\r', '\n'] else l.getLast?.toList.filter isBreak

theorem lineEnd_crlf (b : Text) : lineEnd (b ++ ['\r', '\n']) = ['\r', '\n'] := by
  unfold lineEnd
  rw [if_pos (List.isSuffixOf_iff_suffix.2 (List.suffix_append _ _))]

theorem lineEnd_concat {b : Text} {c : Char} (hb : ∀ x ∈ b, isBreak x = false)
    (hc : isBreak c = true) : lineEnd (b ++ [c]) = [c] := by
  unfold lineEnd
  rw [if_neg, List.getLast?_concat]
  · simp [hc]
  · rw [List.isSuffixOf_iff_suffix]
    rintro ⟨a, ha⟩
    have hsplit : (a ++ ['\r']) ++ ['\n'] = b ++ [c] := by rw [← ha]; simp
    obtain ⟨hab, -⟩ := List.append_inj' hsplit rfl
    have hr := hb '\r' (by rw [← hab]; simp)
    cases hr

theorem lineEnd_of_last {b : Text} {c : Char} (hb : b.getLast? = some c) (hc : isBreak c = false) :
    lineEnd b = [] := by
  unfold lineEnd
  rw [if_neg, hb]
  · simp [hc]
  · rw [List.isSuffixOf_iff_suffix]
    rintro ⟨a, rfl⟩
    rw [List.getLast?_append] at hb
    cases hb
    cases hc

theorem lineEnd_of_not_break {b : Text} (hb : ∀ x ∈ b, isBreak x = false) : lineEnd b = [] := by
  cases h : b.getLast? with
  | none =>
    rw [List.getLast?_eq_none_iff.1 h]
    rfl
  | some c => exact lineEnd_of_last h (hb c (List.mem_of_getLast? h))

/-- A line is its text and its boundary. -/
theorem line_eq_append {l : Text} (h : Ended l ∨ Unended l) :
    ∃ b, (∀ c ∈ b, isBreak c = false) ∧ l = b ++ lineEnd l := by
  rcases h with ⟨b, hb, rfl | ⟨c, hc, rfl⟩⟩ | ⟨-, hl⟩
  · exact ⟨b, hb, by rw [lineEnd_crlf]⟩
  · exact ⟨b, hb, by rw [lineEnd_concat hb hc]⟩
  · exact ⟨l, hl, by rw [lineEnd_of_not_break hl, List.append_nil]⟩

theorem Unended.lineEnd_eq_nil {l : Text} (h : Unended l) : lineEnd l = [] :=
  lineEnd_of_not_break h.2

/-- What `content` leaves out are line feeds and carriage returns. -/
theorem content_append {b e : Text} (he : ∀ c ∈ e, c = '\n' ∨ c = '\r')
    (hb : ∀ c, b.getLast? = some c → c ≠ '\n' ∧ c ≠ '\r') : content (b ++ e) = b := by
  induction e using List.reverseRecOn with
  | nil =>
    unfold content
    rw [List.append_nil, List.rdropWhile_eq_self_iff]
    intro hne hlast
    have hl := hb _ (List.getLast?_eq_some_getLast hne)
    simp [hl.1, hl.2] at hlast
  | append_singleton e c ih =>
    have hc : c ∈ ['\n', '\r'] := by
      rcases he c (by simp) with rfl | rfl <;> decide
    unfold content at ih ⊢
    rw [← List.append_assoc, List.rdropWhile_concat, if_pos (by simpa using hc)]
    exact ih fun x hx => he x (List.mem_append_left _ hx)

/-- The rest of a line after its content. -/
theorem content_rest (l : Text) :
    l = content l ++ l.drop (content l).length ∧
      (∀ c ∈ l.drop (content l).length, c = '\n' ∨ c = '\r') := by
  obtain ⟨e, he⟩ : ∃ e, content l ++ e = l := List.rdropWhile_prefix _ l
  have hdrop : l.drop (content l).length = e := by
    have hl : l.drop (content l).length = (content l ++ e).drop (content l).length := by rw [he]
    exact hl.trans List.drop_left
  refine ⟨by rw [hdrop, he], fun c hc => ?_⟩
  rw [hdrop] at hc
  have hlast : l.reverse.takeWhile (· ∈ ['\n', '\r']) = e.reverse := by
    have hsplit := List.takeWhile_append_dropWhile (p := (· ∈ ['\n', '\r'])) (l := l.reverse)
    have hcontent : l.reverse.dropWhile (· ∈ ['\n', '\r']) = (content l).reverse := by
      rw [content, List.rdropWhile, List.reverse_reverse]
    rw [hcontent] at hsplit
    have hrev : l.reverse = e.reverse ++ (content l).reverse := by
      rw [← List.reverse_append, he]
    exact List.append_cancel_right (hsplit.trans hrev)
  have hmem := List.mem_takeWhile_imp (hlast ▸ List.mem_reverse.2 hc)
  simpa using hmem

theorem content_getLast {l : Text} {c : Char} (h : (content l).getLast? = some c) :
    c ≠ '\n' ∧ c ≠ '\r' := by
  have hne : content l ≠ [] := fun hn => by rw [hn] at h; cases h
  have hlast := List.rdropWhile_last_not (fun c => decide (c ∈ ['\n', '\r'])) l hne
  have hc : (content l).getLast hne = c := by
    rw [List.getLast?_eq_some_getLast hne] at h
    exact Option.some.inj h
  rw [show (l.rdropWhile fun c => decide (c ∈ ['\n', '\r'])).getLast hne = c from hc] at hlast
  simpa using hlast

/-- What precedes the boundary of a line can be replaced. -/
theorem lineEnd_append {l b : Text} (h : Ended l ∨ Unended l) (hb : ∀ c ∈ b, isBreak c = false) :
    lineEnd (b ++ lineEnd l) = lineEnd l := by
  rcases h with ⟨a, ha, rfl | ⟨c, hc, rfl⟩⟩ | hl
  · rw [lineEnd_crlf, lineEnd_crlf]
  · rw [lineEnd_concat ha hc, lineEnd_concat hb hc]
  · rw [hl.lineEnd_eq_nil, List.append_nil, lineEnd_of_not_break hb]

theorem Ended.replace {l b : Text} (h : Ended l) (hb : ∀ c ∈ b, isBreak c = false) :
    Ended (b ++ lineEnd l) ∧ (b ++ lineEnd l).getLast? = l.getLast? := by
  obtain ⟨a, ha, rfl | ⟨c, hc, rfl⟩⟩ := h
  · rw [lineEnd_crlf]
    exact ⟨⟨b, hb, Or.inl rfl⟩, by simp⟩
  · rw [lineEnd_concat ha hc]
    exact ⟨⟨b, hb, Or.inr ⟨c, hc, rfl⟩⟩, by simp⟩

theorem Unended.replace {l b : Text} (h : Unended l) (hb : ∀ c ∈ b, isBreak c = false)
    (hne : b ≠ []) : Unended (b ++ lineEnd l) := by
  rw [h.lineEnd_eq_nil, List.append_nil]
  exact ⟨hne, hb⟩

theorem isBreak_of_mem_lineEnd {l : Text} (h : Ended l ∨ Unended l) {c : Char}
    (hc : c ∈ lineEnd l) : isBreak c = true := by
  rcases h with ⟨a, ha, rfl | ⟨d, hd, rfl⟩⟩ | hl
  · rw [lineEnd_crlf] at hc
    rcases List.mem_cons.1 hc with rfl | hc
    · rfl
    · rw [List.mem_singleton.1 hc]
      rfl
  · rw [lineEnd_concat ha hd] at hc
    rw [List.mem_singleton.1 hc]
    exact hd
  · rw [hl.lineEnd_eq_nil] at hc
    cases hc

/-! ### Another line in place of one -/

/-- A line that begins and ends as another does can stand in its place. -/
theorem Cut.set {ls : List Text} (h : Cut ls) {i : ℕ} {l l' : Text} (hl : ls[i]? = some l)
    (hended : Ended l → Ended l' ∧ l'.getLast? = l.getLast?) (hunended : Unended l → Unended l')
    (hhead : l'.head? = l.head?) : Cut (ls.set i l') := by
  induction ls generalizing i with
  | nil => cases hl
  | cons m ls ih =>
    cases i with
    | zero =>
      cases hl
      rw [List.set_cons_zero]
      cases ls with
      | nil => exact h.imp (fun he => (hended he).1) hunended
      | cons n ls =>
        obtain ⟨he, hs, hrest⟩ := h
        have hnew := hended he
        exact ⟨hnew.1, fun hs' => hs ⟨hnew.2 ▸ hs'.1, hs'.2⟩, hrest⟩
    | succ i =>
      rw [List.getElem?_cons_succ] at hl
      have hrest := ih h.tail hl
      rw [List.set_cons_succ]
      cases ls with
      | nil => cases hl
      | cons n ls =>
        refine cut_cons h.1 (fun k hk hs => h.2.1 ⟨hs.1, ?_⟩) hrest
        cases i with
        | zero =>
          cases hl
          cases hk
          rw [← hhead]
          exact hs.2
        | succ i =>
          cases hk
          exact hs.2

/-- Only one line can stand at a place of a text. -/
theorem flatten_set_inj {ls : List Text} {i : ℕ} (hi : i < ls.length) {l m : Text}
    (h : (ls.set i l).flatten = (ls.set i m).flatten) : l = m := by
  rw [List.set_eq_take_append_cons_drop, if_pos hi, List.set_eq_take_append_cons_drop,
    if_pos hi, List.flatten_append, List.flatten_append, List.flatten_cons, List.flatten_cons] at h
  exact List.append_cancel_right (List.append_cancel_left h)

/-! ### More lines -/

/-- A line between two others. -/
theorem cut_insert {front back : List Text} {l : Text} (h : Cut (front ++ back))
    (hfront : ∀ m ∈ front, Ended m) (hl : Ended l) (hlast : l.getLast? = some '\n')
    (hseam : ∀ m, front.getLast? = some m → ¬ Seam m l) : Cut (front ++ l :: back) := by
  refine cut_append h.left (cut_cons hl (fun m _ hs => ?_) h.right) hfront ?_
  · rw [hs.1] at hlast
    cases hlast
  · intro m m' hm hm'
    cases hm'
    exact hseam m hm

theorem ended_of_getLast {t : Text} (h : ∀ c, t.getLast? = some c → isBreak c = true) {l : Text}
    (hl : l ∈ splitlines t) : Ended l := by
  have hcut := cut_splitlines t
  obtain ⟨a, b, hab⟩ := List.append_of_mem hl
  cases b with
  | cons m b =>
    have hcut' : Cut ((a ++ [l]) ++ m :: b) := by rw [List.append_assoc]; exact hab ▸ hcut
    exact hcut'.ended (List.cons_ne_nil _ _) (by simp)
  | nil =>
    refine (hcut.ended_or hl).resolve_right fun hu => ?_
    have hlast : t.getLast? = l.getLast? := by
      rw [← splitlines_flatten t, hab, List.flatten_append, List.flatten_cons, List.flatten_nil,
        List.append_nil, List.getLast?_append_of_ne_nil _ hu.1]
    have hbreak := h _ (hlast.trans (List.getLast?_eq_some_getLast hu.1))
    rw [hu.2 _ (List.getLast_mem hu.1)] at hbreak
    cases hbreak

/-- A boundary behind the last line of a text that lacks one. -/
theorem cut_concat_end {init : List Text} {l e : Text} (h : Cut (init ++ [l])) (hl : Unended l)
    (he : e = ['\n'] ∨ e = ['\r', '\n']) : Cut (init ++ [l ++ e]) := by
  have hended : Ended (l ++ e) := by
    rcases he with rfl | rfl
    · exact ⟨l, hl.2, Or.inr ⟨'\n', rfl, rfl⟩⟩
    · exact ⟨l, hl.2, Or.inl rfl⟩
  induction init with
  | nil => exact Or.inl hended
  | cons m init ih =>
    have hm : Ended m := h.ended (a := m :: init) (List.cons_ne_nil _ _) List.mem_cons_self
    refine cut_cons hm ?_ (ih h.tail)
    intro n hn hs
    cases init with
    | nil =>
      cases hn
      obtain ⟨c, cs, rfl⟩ := List.exists_cons_of_ne_nil hl.1
      exact h.2.1 hs
    | cons n' init =>
      cases hn
      exact h.2.1 hs

end Lines
