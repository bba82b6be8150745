import DeviceBuilder.Helpers.YamlScalar
import DeviceBuilder.Helpers.YamlMapping
import Mathlib.Data.List.TakeWhile
import Mathlib.Tactic.SplitIfs
import Mathlib.Tactic.Tauto

/-!
# Reading and writing a scalar

The reader and the writer share a walker, and a written line looks to the walker as
the old one did (`LineShape.skeleton`), so every path leads to the line it led to.
The scan of the written line finds the written value and the old comment
(`split_written`).

* `rewrite_reads_back`: what a write does, and when: not where a separator other than
  line feeds and carriage returns ends the line and no comment stands before it, and
  not for a value that white space of Unicode begins or ends.
-/

namespace DeviceBuilder

open Lines

/-! ### Scalars -/

/-- What may stand between double quotes. -/
inductive DoubleQuoted : Text → Prop
  | nil : DoubleQuoted []
  | char {c : Char} {s : Text} : c ≠ '"' → c ≠ '\\' → DoubleQuoted s → DoubleQuoted (c :: s)
  | escape {c : Char} {s : Text} : DoubleQuoted s → DoubleQuoted ('\\' :: c :: s)

/-- What may stand between single quotes. -/
inductive SingleQuoted : Text → Prop
  | nil : SingleQuoted []
  | char {c : Char} {s : Text} : c ≠ '\'' → SingleQuoted s → SingleQuoted (c :: s)
  | quote {s : Text} : SingleQuoted s → SingleQuoted ('\'' :: '\'' :: s)

/-- The indicators that cannot begin a plain scalar. -/
def indicators : Text :=
  [',', '[', ']', '{', '}', '#', '&', '*', '!', '|', '>', '\'', '"', '%', '@', '\x60']

/-- The indicators that can begin a plain scalar before a character that is not blank. -/
def softIndicators : Text := ['-', '?', ':']

/-- A plain scalar on one line. -/
structure PlainScalar (w : Text) : Prop where
  first : ∃ c cs, w = c :: cs ∧ isBlank c = false ∧ c ∉ indicators ∧
    (c ∈ softIndicators → ∃ d, cs.head? = some d ∧ isBlank d = false)
  last : ∀ c, w.getLast? = some c → isBlank c = false
  hash : ∀ a b cs, w = a ++ b :: '#' :: cs → isBlank b = false
  colon : ∀ a cs, w = a ++ ':' :: cs → ∃ d, cs.head? = some d ∧ isBlank d = false

/-- A quoted or a plain scalar on one line. -/
structure IsScalar (w : Text) : Prop where
  oneLine : ∀ c ∈ w, isBreak c = false
  style : (∃ s, DoubleQuoted s ∧ w = '"' :: (s ++ ['"'])) ∨
    (∃ s, SingleQuoted s ∧ w = '\'' :: (s ++ ['\''])) ∨ PlainScalar w

variable {word : Char → Bool}

/-! ### The scan -/

/-- Where the scan stands after a text. -/
def Mode.after (mode : Mode) (s : Text) : Mode := s.foldl Mode.next mode

theorem commentAt_append {mode : Mode} {prev : Option Char} {s t : Text}
    (h : commentAt mode prev s = none) :
    commentAt mode prev (s ++ t) =
      (commentAt (mode.after s) (s.getLast?.or prev) t).map (· + s.length) := by
  induction s generalizing mode prev with
  | nil => simp [Mode.after]
  | cons c s ih =>
    rw [commentAt] at h
    split at h
    · cases h
    · next hc =>
      rw [Option.map_eq_none_iff] at h
      rw [List.cons_append, commentAt, if_neg hc, ih h, Option.map_map]
      have hlast : (c :: s).getLast?.or prev = s.getLast?.or (some c) := by
        cases s with
        | nil => rfl
        | cons d s =>
          rw [List.getLast?_cons_cons]
          simp [List.getLast?_eq_some_getLast]
      rw [hlast]
      rfl

/-- A found comment: a blank, and the `#`. -/
theorem commentAt_some {mode : Mode} {prev : Option Char} {t : Text} {i : ℕ}
    (h : commentAt mode prev t = some i) :
    ∃ tail, t = t.take i ++ '#' :: tail ∧ ((t.take i).getLast?.or prev).any isBlank = true := by
  induction t generalizing mode prev i with
  | nil => cases h
  | cons c t ih =>
    rw [commentAt] at h
    split at h
    · next hc =>
      cases h
      simp only [Bool.and_eq_true, beq_iff_eq] at hc
      exact ⟨t, by rw [hc.1.2]; rfl, hc.2⟩
    · obtain ⟨j, hj, rfl⟩ := Option.map_eq_some_iff.1 h
      obtain ⟨tail, ht, hb⟩ := ih hj
      refine ⟨tail, ?_, ?_⟩
      · rw [List.take_succ_cons, List.cons_append, ← ht]
      · rw [List.take_succ_cons]
        cases hs : t.take j with
        | nil => rw [hs] at hb; exact hb
        | cons d s =>
          rw [hs] at hb
          rw [List.getLast?_cons_cons]
          simpa [List.getLast?_eq_some_getLast] using hb

/-- A trailing comment, or none. -/
def IsComment (comment : Text) : Prop :=
  comment = [] ∨ ∃ blanks tail, comment = blanks ++ '#' :: tail ∧ blanks ≠ [] ∧
    ∀ c ∈ blanks, isBlank c = true

/-- The value and the comment make up the rest of the line. -/
theorem split_parts (rest : Text) :
    (splitValueAndComment rest).1 ++ (splitValueAndComment rest).2 = rest ∧
      IsComment (splitValueAndComment rest).2 := by
  unfold splitValueAndComment
  cases h : commentAt .lead none rest with
  | none => exact ⟨List.append_nil rest, Or.inl rfl⟩
  | some i =>
    dsimp only
    obtain ⟨tail, ht, hb⟩ := commentAt_some h
    obtain ⟨blanks, hblanks⟩ : ∃ e, (rest.take i).rdropWhile isBlank ++ e = rest.take i :=
      List.rdropWhile_prefix _ _
    have hdrop : rest.drop ((rest.take i).rdropWhile isBlank).length = blanks ++ '#' :: tail := by
      have h1 : rest = (rest.take i).rdropWhile isBlank ++ (blanks ++ '#' :: tail) := by
        rw [← List.append_assoc, hblanks]
        exact ht
      have h2 := congrArg (List.drop ((rest.take i).rdropWhile isBlank).length) h1
      exact h2.trans List.drop_left
    refine ⟨?_, Or.inr ⟨blanks, tail, hdrop, ?_, ?_⟩⟩
    · rw [hdrop, ← List.append_assoc, hblanks]
      exact ht.symm
    · rintro rfl
      rw [List.append_nil, List.rdropWhile_eq_self_iff] at hblanks
      cases hlast : (rest.take i).getLast? with
      | none => rw [hlast] at hb; cases hb
      | some c =>
        have hne : rest.take i ≠ [] := fun hn => by rw [hn] at hlast; cases hlast
        have hc := hblanks hne
        rw [List.getLast?_eq_some_getLast hne] at hlast
        rw [Option.some.inj hlast] at hc
        rw [List.getLast?_eq_some_getLast hne, Option.some.inj hlast] at hb
        exact hc hb
    · intro c hc
      have hrev : (rest.take i).reverse.takeWhile isBlank = blanks.reverse := by
        have hsplit := List.takeWhile_append_dropWhile (p := isBlank) (l := (rest.take i).reverse)
        have hdw : (rest.take i).reverse.dropWhile isBlank =
            ((rest.take i).rdropWhile isBlank).reverse := by
          rw [List.rdropWhile, List.reverse_reverse]
        have hr : (rest.take i).reverse =
            blanks.reverse ++ ((rest.take i).rdropWhile isBlank).reverse := by
          rw [← List.reverse_append, hblanks]
        rw [hdw] at hsplit
        exact List.append_cancel_right (hsplit.trans hr)
      exact List.mem_takeWhile_imp (hrev ▸ List.mem_reverse.2 hc)

/-- Outside quotes a comment opens at its `#`. -/
theorem commentAt_comment {mode : Mode} (hm : mode = .plain ∨ mode = .closing)
    {prev : Option Char} {blanks tail : Text} (hne : blanks ≠ [])
    (hb : ∀ c ∈ blanks, isBlank c = true) :
    commentAt mode prev (blanks ++ '#' :: tail) = some blanks.length := by
  have hblank : ∀ c, isBlank c = true → c ≠ '#' ∧ c ≠ '\'' := by
    intro c hc
    constructor <;> rintro rfl <;> cases hc
  induction blanks generalizing mode prev with
  | nil => exact absurd rfl hne
  | cons c blanks ih =>
    have hc := hb c List.mem_cons_self
    have hnext : mode.next c = .plain := by
      rcases hm with rfl | rfl
      · rfl
      · simp [Mode.next, (hblank c hc).2]
    rw [List.cons_append, commentAt, if_neg (by simp [(hblank c hc).1]), hnext]
    cases blanks with
    | nil => simp [commentAt, Mode.open, hc]
    | cons d blanks =>
      rw [ih (Or.inl rfl) (List.cons_ne_nil _ _) fun x hx => hb x (List.mem_cons_of_mem _ hx)]
      rfl

theorem commentAt_plain (prev : Option Char) {s : Text}
    (h : ∀ a b cs, prev.toList ++ s = a ++ b :: '#' :: cs → isBlank b = false) :
    commentAt .plain prev s = none ∧ Mode.plain.after s = .plain := by
  induction s generalizing prev with
  | nil => exact ⟨rfl, rfl⟩
  | cons c s ih =>
    have hno : ¬ (Mode.plain.open && c == '#' && prev.any isBlank) = true := by
      intro hc
      simp only [Bool.and_eq_true, beq_iff_eq] at hc
      obtain ⟨⟨-, rfl⟩, hb⟩ := hc
      cases prev with
      | none => cases hb
      | some b =>
        have hn := h [] b s rfl
        rw [show Option.any isBlank (some b) = isBlank b from rfl, hn] at hb
        cases hb
    have hrest := ih (some c) fun a b cs he =>
      h (prev.toList ++ a) b cs (by rw [List.append_assoc, ← he]; rfl)
    rw [commentAt, if_neg hno]
    exact ⟨by rw [show Mode.plain.next c = .plain from rfl, hrest.1]; rfl, hrest.2⟩

theorem commentAt_double {s : Text} (h : DoubleQuoted s) (prev : Option Char) :
    commentAt (.quoted '"') prev (s ++ ['"']) = none ∧
      (Mode.quoted '"').after (s ++ ['"']) = .plain := by
  induction h generalizing prev with
  | nil => exact ⟨rfl, rfl⟩
  | @char c s hq he _ ih =>
    have hnext : (Mode.quoted '"').next c = .quoted '"' := by simp [Mode.next, hq, he]
    rw [List.cons_append, commentAt, if_neg (by simp [Mode.open]), hnext]
    refine ⟨by rw [(ih (some c)).1]; rfl, ?_⟩
    show ((Mode.quoted '"').next c).after (s ++ ['"']) = .plain
    rw [hnext]
    exact (ih none).2
  | @escape c s _ ih =>
    have hnext : Mode.escaped.next c = .quoted '"' := rfl
    rw [List.cons_append, List.cons_append, commentAt, if_neg (by simp [Mode.open]), commentAt,
      if_neg (by simp [Mode.next, Mode.open])]
    refine ⟨?_, ?_⟩
    · show ((commentAt (.quoted '"') (some c) (s ++ ['"'])).map (· + 1)).map (· + 1) = none
      rw [(ih (some c)).1]
      rfl
    · exact (ih none).2

theorem commentAt_single {s : Text} (h : SingleQuoted s) (prev : Option Char) :
    commentAt (.quoted '\'') prev (s ++ ['\'']) = none ∧
      (Mode.quoted '\'').after (s ++ ['\'']) = .closing := by
  induction h generalizing prev with
  | nil => exact ⟨rfl, rfl⟩
  | @char c s hq _ ih =>
    have hnext : (Mode.quoted '\'').next c = .quoted '\'' := by simp [Mode.next, hq]
    rw [List.cons_append, commentAt, if_neg (by simp [Mode.open]), hnext]
    refine ⟨by rw [(ih (some c)).1]; rfl, ?_⟩
    show ((Mode.quoted '\'').next c).after (s ++ ['\'']) = .closing
    rw [hnext]
    exact (ih none).2
  | @quote s _ ih =>
    rw [List.cons_append, List.cons_append, commentAt, if_neg (by simp [Mode.open]), commentAt,
      if_neg (by simp [Mode.next, Mode.open])]
    refine ⟨?_, ?_⟩
    · show ((commentAt (.quoted '\'') (some '\'') (s ++ ['\''])).map (· + 1)).map (· + 1) = none
      rw [(ih (some '\'')).1]
      rfl
    · exact (ih none).2

theorem IsScalar.ne_nil {w : Text} (h : IsScalar w) : w ≠ [] := by
  rcases h.style with ⟨s, -, rfl⟩ | ⟨s, -, rfl⟩ | hp
  · exact List.cons_ne_nil _ _
  · exact List.cons_ne_nil _ _
  · obtain ⟨c, cs, rfl, -⟩ := hp.first
    exact List.cons_ne_nil _ _

theorem IsScalar.last {w : Text} (h : IsScalar w) (c : Char) (hc : w.getLast? = some c) :
    isBlank c = false := by
  rcases h.style with ⟨s, -, rfl⟩ | ⟨s, -, rfl⟩ | hp
  · rw [← List.cons_append, List.getLast?_concat] at hc
    cases hc
    rfl
  · rw [← List.cons_append, List.getLast?_concat] at hc
    cases hc
    rfl
  · exact hp.last c hc

/-- **A scalar holds no comment**, and the scan ends outside quotes. -/
theorem IsScalar.commentAt {w : Text} (h : IsScalar w) :
    commentAt .lead none (' ' :: w) = none ∧
      (Mode.lead.after (' ' :: w) = .plain ∨ Mode.lead.after (' ' :: w) = .closing) := by
  have hstart : DeviceBuilder.commentAt .lead none (' ' :: w) =
      (DeviceBuilder.commentAt .lead (some ' ') w).map (· + 1) := rfl
  rw [hstart]
  rcases h.style with ⟨s, hs, rfl⟩ | ⟨s, hs, rfl⟩ | hp
  · have hd := commentAt_double hs (some '"')
    exact ⟨by rw [show DeviceBuilder.commentAt .lead (some ' ') ('"' :: (s ++ ['"'])) =
      (DeviceBuilder.commentAt (.quoted '"') (some '"') (s ++ ['"'])).map (· + 1) from rfl, hd.1]
              rfl, Or.inl hd.2⟩
  · have hd := commentAt_single hs (some '\'')
    exact ⟨by rw [show DeviceBuilder.commentAt .lead (some ' ') ('\'' :: (s ++ ['\''])) =
      (DeviceBuilder.commentAt (.quoted '\'') (some '\'') (s ++ ['\''])).map (· + 1) from rfl, hd.1]
              rfl, Or.inr hd.2⟩
  · obtain ⟨c, cs, rfl, hb, hind, -⟩ := hp.first
    have hne : ∀ d ∈ indicators, (c == d) = false := by
      intro d hd
      rw [beq_eq_false_iff_ne]
      rintro rfl
      exact hind hd
    have hnext : Mode.lead.next c = .plain := by
      simp [Mode.next, hb, hne '!' (by decide), hne '&' (by decide), hne '"' (by decide),
        hne '\'' (by decide)]
    have hrest := commentAt_plain (some c) fun a b t he => hp.hash a b t he
    rw [DeviceBuilder.commentAt, if_neg (by simp [hne '#' (by decide)]), hnext, hrest.1]
    refine ⟨rfl, Or.inl ?_⟩
    show (Mode.lead.next c).after cs = .plain
    rw [hnext]
    exact hrest.2

/-- **A written value and the comment behind it are read back.** -/
theorem split_written {w comment : Text} (hw : IsScalar w) (hc : IsComment comment) :
    splitValueAndComment (' ' :: w ++ comment) = (' ' :: w, comment) := by
  obtain ⟨hnone, hmode⟩ := hw.commentAt
  unfold splitValueAndComment
  rcases hc with rfl | ⟨blanks, tail, rfl, hne, hb⟩
  · rw [List.append_nil, hnone]
  · rw [commentAt_append hnone, commentAt_comment hmode hne hb]
    dsimp only [Option.map_some]
    have hlen : blanks.length + (' ' :: w).length = (' ' :: w ++ blanks).length := by
      rw [List.length_append, Nat.add_comm]
    have hvalue : (' ' :: w ++ blanks).rdropWhile isBlank = ' ' :: w := by
      rw [List.rdropWhile, List.reverse_append, List.dropWhile_append,
        if_pos (by simpa [List.dropWhile_eq_nil_iff] using hb)]
      rw [← List.rdropWhile, List.rdropWhile_eq_self_iff]
      intro hn
      have hlast : w.getLast? = some ((' ' :: w).getLast hn) := by
        rw [List.getLast_cons hw.ne_nil, List.getLast?_eq_some_getLast hw.ne_nil]
      rw [hw.last _ hlast]
      exact Bool.false_ne_true
    rw [hlen, ← List.append_assoc, List.take_left, hvalue, List.append_assoc, List.drop_left]

/-! ### The lines -/

/-- The text of a match, with `rest` after the colon. -/
def KeyMatch.text (m : KeyMatch) (rest : Text) : Text := m.indent ++ m.key ++ ':' :: rest

/-- The indent and the key are what the pattern lets them be. -/
structure KeyMatch.Ok (word : Char → Bool) (m : KeyMatch) : Prop where
  indent : ∀ c ∈ m.indent, Lines.isSpace c = true
  key : ∃ c cs, m.key = c :: cs ∧ opensKey c = true ∧ ∀ d ∈ cs, inKey word d = true

theorem opensKey_spec {c : Char} (h : opensKey c = true) :
    Lines.isSpace c = false ∧ c ≠ ' ' ∧ c ≠ '#' ∧ c ≠ '-' := by
  have hname : c.isAlphanum = true ∨ c = '_' := by
    rw [opensKey, Bool.or_eq_true, beq_iff_eq] at h
    exact h.imp_left fun ha => by rw [Char.isAlphanum, ha, Bool.true_or]
  exact ⟨isSpace_of_name hname, ne_of_name hname⟩

theorem dropWhile_append_cons {α : Type*} {p : α → Bool} {a b : List α} {x : α}
    (ha : ∀ y ∈ a, p y = true) (hx : p x = false) :
    (a ++ x :: b).takeWhile p = a ∧ (a ++ x :: b).dropWhile p = x :: b := by
  induction a with
  | nil => simp [hx]
  | cons y a ih =>
    have hy := ha y List.mem_cons_self
    have hrest := ih fun z hz => ha z (List.mem_cons_of_mem _ hz)
    simp [hy, hrest]

/-- A match is what it matches. -/
theorem mappingKeyLine_text {m : KeyMatch} (h : m.Ok word) (rest : Text) :
    mappingKeyLine word (m.text rest) = some { m with rest := rest } := by
  obtain ⟨hindent, c, cs, hkey, hc, hcs⟩ := h
  have hlead : (m.indent ++ c :: (cs ++ ':' :: rest)).takeWhile Lines.isSpace = m.indent ∧
      (m.indent ++ c :: (cs ++ ':' :: rest)).dropWhile Lines.isSpace = c :: (cs ++ ':' :: rest) :=
    dropWhile_append_cons hindent (opensKey_spec hc).1
  have hcolon : inKey word ':' = false := by
    rw [inKey, Bool.or_eq_false_iff]
    exact ⟨by rw [show (':' != ':') = false from rfl, Bool.and_false], rfl⟩
  have hrun := dropWhile_append_cons (b := rest) hcs hcolon
  have htext : m.text rest = m.indent ++ c :: (cs ++ ':' :: rest) := by
    rw [KeyMatch.text, hkey, List.append_assoc]
    rfl
  unfold mappingKeyLine
  simp only [htext, hlead.1, hlead.2, hrun.1, hrun.2, hc, if_true, hkey]

theorem mappingKeyLine_some {body : Text} {m : KeyMatch} (h : mappingKeyLine word body = some m) :
    m.Ok word ∧ body = m.text m.rest := by
  unfold mappingKeyLine at h
  split at h
  · cases h
  · next c cs hd =>
    split at h
    · next rest hr =>
      split at h
      · next hc =>
        cases h
        refine ⟨⟨fun x hx => List.mem_takeWhile_imp hx, c, _, rfl, hc, fun d hd =>
          List.mem_takeWhile_imp hd⟩, ?_⟩
        have h1 := List.takeWhile_append_dropWhile (p := Lines.isSpace) (l := body)
        have h2 := List.takeWhile_append_dropWhile (p := inKey word) (l := cs)
        rw [hr] at h2
        rw [hd] at h1
        simp only [KeyMatch.text, List.append_assoc, List.cons_append]
        rw [h2]
        exact h1.symm
      · cases h
    · cases h

/-- The blanks in front of a match. -/
def KeyMatch.depth (m : KeyMatch) : ℕ := (m.indent.takeWhile (· == ' ')).length

/-- What the walker sees in the line of a match. -/
theorem lineShape_text {m : KeyMatch} (h : m.Ok word) {line rest : Text}
    (hline : content line = m.text rest) :
    lineShape word line = .entry m.depth { m with rest := rest } := by
  obtain ⟨c, cs, hkey, hc, -⟩ := h.key
  obtain ⟨-, hblank, hhash, hdash⟩ := opensKey_spec hc
  -- the first character that is not a blank is white space or opens the key
  obtain ⟨d, ds, hhead, hd⟩ : ∃ d ds, lstripBlanks (m.text rest) = d :: ds ∧ d ≠ '#' ∧ d ≠ '-' := by
    have hspace : ∀ d ds, m.indent.dropWhile (· == ' ') = d :: ds → d ≠ '#' ∧ d ≠ '-' := by
      intro d ds hds
      have hmem : d ∈ m.indent := (List.dropWhile_suffix _).subset (hds ▸ List.mem_cons_self)
      have hs := h.indent d hmem
      constructor <;> rintro rfl <;> cases hs
    unfold lstripBlanks
    rw [KeyMatch.text, List.append_assoc, List.dropWhile_append]
    split
    · refine ⟨c, cs ++ ':' :: rest, ?_, hhash, hdash⟩
      rw [hkey, List.cons_append, List.dropWhile_cons_of_neg (by simpa using hblank)]
    · next hne =>
      cases hds : m.indent.dropWhile (· == ' ') with
      | nil => simp [hds] at hne
      | cons d ds => exact ⟨d, _, rfl, hspace d ds hds⟩
  have hdepth : (m.text rest).length - (lstripBlanks (m.text rest)).length = m.depth := by
    have hparts := congrArg List.length
      (List.takeWhile_append_dropWhile (p := (· == ' ')) (l := m.text rest))
    have htake : (m.text rest).takeWhile (· == ' ') = m.indent.takeWhile (· == ' ') := by
      rw [KeyMatch.text, List.append_assoc, List.takeWhile_append]
      split
      · next hall =>
        rw [hkey, List.cons_append, List.takeWhile_cons_of_neg (by simpa using hblank),
          List.append_nil]
        exact ((List.takeWhile_prefix _).eq_of_length hall).symm
      · rfl
    rw [List.length_append, htake] at hparts
    unfold KeyMatch.depth lstripBlanks
    omega
  unfold lineShape
  simp only [hline, hdepth, mappingKeyLine_text h]
  rw [hhead]
  have h1 : startsWith (d :: ds) ['#'] = false := by
    simp [startsWith, List.isPrefixOf, Ne.symm hd.1]
  have h2 : startsWith (d :: ds) ['-', ' '] = false := by
    simp [startsWith, List.isPrefixOf, Ne.symm hd.2]
  have h3 : ((d :: ds) == ['-']) = false := by simp [hd.2]
  simp [h1, h2, h3]

theorem lineShape_entry {line : Text} {n : ℕ} {m : KeyMatch}
    (h : lineShape word line = .entry n m) :
    m.Ok word ∧ content line = m.text m.rest ∧ n = m.depth := by
  have hm : mappingKeyLine word (content line) = some m := by
    unfold lineShape at h
    dsimp only at h
    split at h
    · cases h
    · split at h
      · cases h
      · split at h
        · cases h
        · next m' hm' =>
          cases h
          exact hm'
  obtain ⟨hok, htext⟩ := mappingKeyLine_some hm
  refine ⟨hok, htext, ?_⟩
  rw [lineShape_text hok htext] at h
  cases h
  rfl

/-! ### The walker -/

/-- A line as the walk goes on from it. -/
def LineShape.skeleton : LineShape → LineShape
  | .entry n m => .entry n { m with rest := [] }
  | s => s

/-- The lines as the walk goes on from them. -/
def skeletons (word : Char → Bool) (lines : List Text) : List LineShape :=
  lines.map fun l => (lineShape word l).skeleton

/-- The walk finds the line of a key. -/
theorem findLeaf_line {p : List Text} {k : Text} {stack : Frames} {lines : List Text} {i : ℕ}
    {m : KeyMatch} (h : findLeaf word p k stack lines = some (i, m)) :
    ∃ hi : i < lines.length, lineShape word lines[i] = .entry m.depth m := by
  induction lines generalizing stack i with
  | nil => cases h
  | cons line lines ih =>
    have hlater : ∀ {stack' : Frames}, (findLeaf word p k stack' lines).map
        (fun r => (r.1 + 1, r.2)) = some (i, m) →
        ∃ hi : i < (line :: lines).length,
          lineShape word (line :: lines)[i] = .entry m.depth m := by
      intro stack' h'
      obtain ⟨⟨j, m'⟩, hj, he⟩ := Option.map_eq_some_iff.1 h'
      cases he
      obtain ⟨hi, hs⟩ := ih hj
      exact ⟨Nat.succ_lt_succ hi, hs⟩
    rw [findLeaf] at h
    split at h
    · exact hlater h
    · exact hlater h
    · exact hlater h
    · next n m' hm =>
      split at h
      · cases h
        refine ⟨Nat.succ_pos _, ?_⟩
        rw [← (lineShape_entry hm).2.2]
        exact hm
      · exact hlater h

/-- **The walk depends on the skeletons alone.** -/
theorem findLeaf_skeletons {p : List Text} {k : Text} (stack : Frames) {lines lines' : List Text}
    (h : skeletons word lines = skeletons word lines') :
    (findLeaf word p k stack lines).map (·.1) = (findLeaf word p k stack lines').map (·.1) := by
  induction lines generalizing stack lines' with
  | nil =>
    cases lines' with
    | nil => rfl
    | cons _ _ => cases h
  | cons line lines ih =>
    cases lines' with
    | nil => cases h
    | cons line' lines' =>
      simp only [skeletons, List.map_cons, List.cons.injEq] at h
      obtain ⟨hline, hlines⟩ := h
      have hlater : ∀ stack' : Frames,
          ((findLeaf word p k stack' lines).map fun r => (r.1 + 1, r.2)).map (·.1) =
            ((findLeaf word p k stack' lines').map fun r => (r.1 + 1, r.2)).map (·.1) := by
        intro stack'
        have hrest := congrArg (Option.map (· + 1)) (ih stack' hlines)
        rw [Option.map_map, Option.map_map] at hrest
        rw [Option.map_map, Option.map_map]
        exact hrest
      rw [findLeaf, findLeaf]
      cases hs : lineShape word line <;> cases hs' : lineShape word line' <;>
        rw [hs, hs'] at hline <;>
        simp only [LineShape.skeleton, reduceCtorEq, LineShape.item.injEq, LineShape.other.injEq,
          LineShape.entry.injEq, KeyMatch.mk.injEq] at hline
      · exact hlater _
      · subst hline
        exact hlater _
      · subst hline
        exact hlater _
      · next n m n' m' =>
        obtain ⟨rfl, -, hkey, -⟩ := hline
        dsimp only
        rw [← hkey]
        split_ifs
        · rfl
        · exact hlater _

/-- **A line is the leaf of one path.** -/
theorem findLeaf_inj {p p' : List Text} {k k' : Text} {stack : Frames} {lines : List Text} {i : ℕ}
    {m m' : KeyMatch} (h : findLeaf word p k stack lines = some (i, m))
    (h' : findLeaf word p' k' stack lines = some (i, m')) : p = p' ∧ k = k' := by
  induction lines generalizing stack i with
  | nil => cases h
  | cons line lines ih =>
    have hlater : ∀ {stack' : Frames},
        (findLeaf word p k stack' lines).map (fun r => (r.1 + 1, r.2)) = some (i, m) →
        (findLeaf word p' k' stack' lines).map (fun r => (r.1 + 1, r.2)) = some (i, m') →
        p = p' ∧ k = k' := by
      intro stack' h1 h2
      obtain ⟨⟨j, n⟩, hj, he⟩ := Option.map_eq_some_iff.1 h1
      obtain ⟨⟨j', n'⟩, hj', he'⟩ := Option.map_eq_some_iff.1 h2
      simp only [Prod.mk.injEq] at he he'
      obtain ⟨hi, rfl⟩ := he
      obtain ⟨hi', rfl⟩ := he'
      obtain rfl : j' = j := Nat.succ.inj (hi'.trans hi.symm)
      exact ih hj hj'
    rw [findLeaf] at h h'
    cases hs : lineShape word line with
    | gap => rw [hs] at h h'; exact hlater h h'
    | item n => rw [hs] at h h'; exact hlater h h'
    | other n => rw [hs] at h h'; exact hlater h h'
    | entry n m0 =>
      rw [hs] at h h'
      dsimp only at h h'
      split_ifs at h h' with h1 h2 h2
      · exact ⟨h1.2.symm.trans h2.2, h1.1.symm.trans h2.1⟩
      · cases h
        obtain ⟨r, -, hr⟩ := Option.map_eq_some_iff.1 h'
        cases hr
      · cases h'
        obtain ⟨r, -, hr⟩ := Option.map_eq_some_iff.1 h
        cases hr
      · exact hlater h h'

variable {path : List Text} {lines : List Text} {i : ℕ} {m : KeyMatch}

theorem leafOf_line (h : leafOf word path lines = some (i, m)) :
    ∃ hi : i < lines.length, lineShape word lines[i] = .entry m.depth m := by
  unfold leafOf at h
  split at h
  · cases h
  · exact findLeaf_line h

theorem leafOf_skeletons (path : List Text) {lines' : List Text}
    (h : skeletons word lines = skeletons word lines') :
    (leafOf word path lines).map (·.1) = (leafOf word path lines').map (·.1) := by
  unfold leafOf
  split
  · rfl
  · exact findLeaf_skeletons [] h

theorem leafOf_inj {path' : List Text} {m' : KeyMatch} (h : leafOf word path lines = some (i, m))
    (h' : leafOf word path' lines = some (i, m')) : path = path' := by
  unfold leafOf at h h'
  split at h
  · cases h
  · next k hk =>
    split at h'
    · cases h'
    · next k' hk' =>
      obtain ⟨hp, rfl⟩ := findLeaf_inj h h'
      obtain ⟨a, rfl⟩ := List.getLast?_eq_some_iff.1 hk
      obtain ⟨b, rfl⟩ := List.getLast?_eq_some_iff.1 hk'
      rw [List.dropLast_concat, List.dropLast_concat] at hp
      rw [hp]

/-! ### The written line -/

/-- What the written line has after its colon. -/
def KeyMatch.written (m : KeyMatch) (w : Text) : KeyMatch :=
  { m with rest := ' ' :: w ++ m.comment }

theorem rewrite_eq {line w : Text} :
    m.rewrite line w = m.text (m.written w).rest ++ line.drop (content line).length := by
  simp [KeyMatch.rewrite, KeyMatch.text, KeyMatch.written]

theorem KeyMatch.rest_eq : ∃ value, m.rest = value ++ m.comment :=
  ⟨_, (split_parts m.rest).1.symm⟩

theorem content_rewrite {line w : Text} (hw : IsScalar w) (hline : content line = m.text m.rest) :
    content (m.rewrite line w) = m.text (m.written w).rest := by
  rw [rewrite_eq]
  refine content_append (content_rest line).2 fun c hc => ?_
  obtain ⟨value, hvalue⟩ := m.rest_eq
  by_cases hcomment : m.comment = []
  · have hlast : w.getLast? = some c := by
      obtain ⟨d, w', hw'⟩ := List.exists_cons_of_ne_nil hw.ne_nil
      rw [KeyMatch.text, KeyMatch.written, hcomment, List.append_nil, hw'] at hc
      rw [hw']
      simpa using hc
    have hbreak := hw.oneLine c (List.mem_of_getLast? hlast)
    constructor <;> rintro rfl <;> cases hbreak
  · have hlast : ∀ front : Text, (front ++ m.comment).getLast? = m.comment.getLast? :=
      fun front => List.getLast?_append_of_ne_nil front hcomment
    have hnew : m.text (m.written w).rest = m.indent ++ m.key ++ [':', ' '] ++ w ++ m.comment := by
      simp [KeyMatch.text, KeyMatch.written]
    have hold : content line = m.indent ++ m.key ++ ':' :: value ++ m.comment := by
      rw [hline, KeyMatch.text, hvalue]
      simp
    refine content_getLast (l := line) ?_
    rw [hold, hlast]
    rw [hnew, hlast] at hc
    exact hc

theorem lineShape_rewrite {line w : Text} (hw : IsScalar w)
    (hline : lineShape word line = .entry m.depth m) :
    lineShape word (m.rewrite line w) = .entry m.depth (m.written w) := by
  obtain ⟨hok, htext, -⟩ := lineShape_entry hline
  exact lineShape_text hok (content_rewrite hw htext)

theorem written_comment {w : Text} (hw : IsScalar w) : (m.written w).comment = m.comment := by
  have hrest : (m.written w).rest = ' ' :: w ++ (splitValueAndComment m.rest).2 := rfl
  rw [KeyMatch.comment, hrest, split_written hw (split_parts m.rest).2]
  rfl

theorem written_value {w : Text} (hw : IsScalar w) : (m.written w).value = stripText w := by
  exact congrArg (fun parts => stripText parts.1) (split_written hw (split_parts m.rest).2)

/-- The walk takes the written line for the old one. -/
theorem skeletons_rewrite {w : Text} (hw : IsScalar w) (h : leafOf word path lines = some (i, m)) :
    skeletons word lines = skeletons word (lines.set i (m.rewrite (lineAt lines i) w)) := by
  obtain ⟨hi, hline⟩ := leafOf_line h
  have hnew : (lineShape word (m.rewrite (lineAt lines i) w)).skeleton =
      (lineShape word lines[i]).skeleton := by
    rw [lineAt_eq hi, lineShape_rewrite hw hline, hline]
    rfl
  unfold skeletons
  have hset := (List.map_set (f := fun l => (lineShape word l).skeleton) (l := lines) (i := i)
    (a := lines[i])).symm
  rw [List.map_set, hnew, hset, List.set_getElem_self]

/-- **Reading the written line.** -/
theorem leafOf_set {w : Text} (hw : IsScalar w) (h : leafOf word path lines = some (i, m)) :
    leafOf word path (lines.set i (m.rewrite (lineAt lines i) w)) = some (i, m.written w) := by
  obtain ⟨hi, hline⟩ := leafOf_line h
  have hindex := leafOf_skeletons path (skeletons_rewrite hw h)
  rw [h, Option.map_some] at hindex
  obtain ⟨⟨j, m'⟩, hj, he⟩ := Option.map_eq_some_iff.1 hindex.symm
  cases he
  obtain ⟨hlt, hnew⟩ := leafOf_line hj
  rw [List.getElem_set_self, lineAt_eq hi, lineShape_rewrite hw hline] at hnew
  rw [hj, (LineShape.entry.inj hnew).2]

/-- **Reading another path.** -/
theorem leafOf_set_other {path' : List Text} {w : Text} (hw : IsScalar w) (hne : path' ≠ path)
    (h : leafOf word path lines = some (i, m)) :
    leafOf word path' (lines.set i (m.rewrite (lineAt lines i) w)) = leafOf word path' lines := by
  have hindex := leafOf_skeletons path' (skeletons_rewrite hw h)
  cases hold : leafOf word path' lines with
  | none =>
    rw [hold, Option.map_none] at hindex
    exact Option.map_eq_none_iff.1 hindex.symm
  | some r =>
    obtain ⟨j, m'⟩ := r
    have hij : i ≠ j := by
      rintro rfl
      exact hne (leafOf_inj hold h)
    rw [hold, Option.map_some] at hindex
    obtain ⟨⟨j', m''⟩, hj, he⟩ := Option.map_eq_some_iff.1 hindex.symm
    cases he
    obtain ⟨hlt, hline⟩ := leafOf_line hold
    obtain ⟨hlt', hline'⟩ := leafOf_line hj
    rw [List.getElem_set_ne hij, hline] at hline'
    rw [hj, (LineShape.entry.inj hline').2]

/-! ### The end of the written line -/

/-- The line feeds and carriage returns that end the line, if anything does. -/
def EndsPlainly (line : Text) : Prop := ∀ c ∈ lineEnd line, c = '\n' ∨ c = '\r'

/-- Another end is taken for a part of the value. -/
theorem content_of_not_plain {line : Text} (hcut : Ended line ∨ Unended line)
    (h : ¬ EndsPlainly line) : line.drop (content line).length = [] := by
  rcases hcut with ⟨b, hb, rfl | ⟨c, hc, rfl⟩⟩ | hl
  · refine absurd (fun c hc => ?_) h
    rw [lineEnd_crlf] at hc
    simpa [or_comm] using hc
  · have hne : ¬ (c = '\n' ∨ c = '\r') := by
      intro he
      refine h fun d hd => ?_
      rw [lineEnd_concat hb hc] at hd
      rw [List.mem_singleton.1 hd]
      exact he
    have hcontent : content (b ++ [c] ++ []) = b ++ [c] := by
      refine content_append nofun fun d hd => ?_
      rw [List.getLast?_concat] at hd
      cases hd
      exact not_or.1 hne
    rw [List.append_nil] at hcontent
    rw [hcontent, List.drop_length]
  · refine absurd (fun c hc => ?_) h
    rw [hl.lineEnd_eq_nil] at hc
    cases hc

/-- A comment reaches the end of its line. -/
theorem suffix_of_hash {x y b e : Text} (h : x ++ '#' :: y = b ++ e)
    (he : ∀ c ∈ e, isBreak c = true) : ∃ z, y = z ++ e ∧ b = x ++ '#' :: z := by
  have hno : '#' ∉ e := fun hm => by cases he _ hm
  rcases List.append_eq_append_iff.1 h with ⟨a, rfl, ha⟩ | ⟨a, -, ha⟩
  · cases a with
    | nil =>
      rw [List.nil_append] at ha
      exact absurd (ha ▸ List.mem_cons_self) hno
    | cons c a =>
      obtain ⟨rfl, rfl⟩ := List.cons.inj ha
      exact ⟨a, rfl, rfl⟩
  · exact absurd (ha ▸ List.mem_append_right _ List.mem_cons_self) hno

/-- **The written line ends as the old one did**, unless its end was taken for white space. -/
theorem rewrite_end {line w : Text} (hcut : Ended line ∨ Unended line) (hw : IsScalar w)
    (hline : content line = m.text m.rest) (hend : EndsPlainly line ∨ m.comment ≠ []) :
    ∃ b, (∀ c ∈ b, isBreak c = false) ∧ m.rewrite line w = b ++ lineEnd line := by
  obtain ⟨b, hb, hbl⟩ := line_eq_append hcut
  have hfront : ∀ c ∈ m.indent ++ m.key, c ∈ content line := fun c hc => by
    rw [hline, KeyMatch.text]
    exact List.mem_append_left _ hc
  by_cases hcomment : m.comment = []
  · have hplain := hend.resolve_right (not_not_intro hcomment)
    have hcontent : content line = b := by
      conv_lhs => rw [hbl]
      refine content_append hplain fun c hc => ?_
      have hbreak := hb c (List.mem_of_getLast? hc)
      constructor <;> rintro rfl <;> cases hbreak
    have hdrop : line.drop (content line).length = lineEnd line := by
      have h1 : line.drop (content line).length = (b ++ lineEnd line).drop b.length := by
        rw [hcontent, ← hbl]
      exact h1.trans List.drop_left
    refine ⟨m.indent ++ m.key ++ [':', ' '] ++ w, fun c hc => ?_, ?_⟩
    · rcases List.mem_append.1 hc with hc | hc
      · rcases List.mem_append.1 hc with hc | hc
        · exact hb c (hcontent ▸ hfront c hc)
        · rcases List.mem_cons.1 hc with rfl | hc
          · rfl
          · rw [List.mem_singleton.1 hc]
            rfl
      · exact hw.oneLine c hc
    · rw [KeyMatch.rewrite, hcomment, List.append_nil, hdrop]
  · obtain ⟨value, hvalue⟩ := m.rest_eq
    obtain ⟨blanks, tail, hc, -, -⟩ := (split_parts m.rest).2.resolve_left hcomment
    have hc' : m.comment = blanks ++ '#' :: tail := hc
    have hsplit : ∀ r : Text, (m.indent ++ m.key ++ ':' :: value ++ blanks) ++ '#' :: (tail ++ r) =
        content line ++ r := fun r => by
      rw [hline, KeyMatch.text, hvalue, hc']
      simp
    obtain ⟨z, hz, hbz⟩ := suffix_of_hash
      ((hsplit _).trans ((content_rest line).1.symm.trans hbl))
      fun c hc => isBreak_of_mem_lineEnd hcut hc
    refine ⟨m.indent ++ m.key ++ [':', ' '] ++ w ++ blanks ++ '#' :: z, fun c hc => ?_, ?_⟩
    · have hmem : c ∈ w ∨ c = ' ' ∨ c ∈ b := by
        rw [hbz]
        simp only [List.mem_append, List.mem_cons, List.not_mem_nil, or_false] at hc ⊢
        tauto
      rcases hmem with h | rfl | h
      · exact hw.oneLine c h
      · rfl
      · exact hb c h
    · rw [KeyMatch.rewrite, hc']
      simp only [List.append_assoc, List.cons_append]
      rw [hz]

theorem rewrite_head {line w : Text} (hok : m.Ok word) (hline : content line = m.text m.rest) :
    (m.rewrite line w).head? = line.head? := by
  obtain ⟨c, cs, hkey, -⟩ := hok.key
  have hfront : ∀ t : Text, (m.indent ++ m.key ++ t).head? = (m.indent ++ m.key).head? := by
    intro t
    rw [List.head?_append, hkey]
    cases m.indent <;> rfl
  conv_rhs => rw [(content_rest line).1, hline, KeyMatch.text]
  rw [rewrite_eq, KeyMatch.text]
  simp only [List.append_assoc _ (':' :: _)]
  rw [hfront, hfront]

/-- **The lines of the result** are those of the text, but for the leaf's. -/
theorem splitlines_rewrite {text w : Text} (hw : IsScalar w)
    (h : leafOf word path (splitlines text) = some (i, m))
    (hend : EndsPlainly (lineAt (splitlines text) i) ∨ m.comment ≠ []) :
    splitlines ((splitlines text).set i (m.rewrite (lineAt (splitlines text) i) w)).flatten =
        (splitlines text).set i (m.rewrite (lineAt (splitlines text) i) w) ∧
      lineEnd (m.rewrite (lineAt (splitlines text) i) w) =
        lineEnd (lineAt (splitlines text) i) := by
  obtain ⟨hi, hline⟩ := leafOf_line h
  obtain ⟨hok, htext, -⟩ := lineShape_entry hline
  rw [lineAt_eq hi] at hend ⊢
  have hcut := (cut_splitlines text).ended_or (List.getElem_mem hi)
  obtain ⟨b, hb, hnew⟩ := rewrite_end hcut hw htext hend
  refine ⟨splitlines_of_cut ((cut_splitlines text).set (List.getElem?_eq_getElem hi) ?_ ?_
    (rewrite_head hok htext)), ?_⟩
  · intro hended
    rw [hnew]
    exact hended.replace hb
  · intro hunended
    rw [hnew]
    refine hunended.replace hb ?_
    rintro rfl
    rw [hunended.lineEnd_eq_nil] at hnew
    have hlen := congrArg List.length hnew
    simp [KeyMatch.rewrite] at hlen
  · rw [hnew, lineEnd_append hcut hb]

/-- What a write of `w` at `path` promises of its result. -/
structure Rewrites (word : Char → Bool) (text : Text) (path : List Text) (w result : Text) :
    Prop where
  read : readYamlScalar word result path = some w
  others : ∀ path', path' ≠ path →
    readYamlScalar word result path' = readYamlScalar word text path'
  /-- Only the leaf's line is another one, with the old indent, key, comment and end. -/
  line : ∃ i m line m', leafOf word path (splitlines text) = some (i, m) ∧
    splitlines result = (splitlines text).set i line ∧
    mappingKeyLine word (content line) = some m' ∧
    m'.indent = m.indent ∧ m'.key = m.key ∧ m'.comment = m.comment ∧
    lineEnd line = lineEnd (lineAt (splitlines text) i)

/-- The leaf's line ends as the writer expects, or a comment stands before its end. -/
def LeafEnds (word : Char → Bool) (text : Text) (path : List Text) : Prop :=
  ∀ i m, leafOf word path (splitlines text) = some (i, m) →
    EndsPlainly (lineAt (splitlines text) i) ∨ m.comment ≠ []

theorem stripText_stripText (s : Text) : stripText (stripText s) = stripText s := by
  unfold stripText
  have hfirst : ((s.dropWhile Lines.isSpace).rdropWhile Lines.isSpace).dropWhile Lines.isSpace =
      (s.dropWhile Lines.isSpace).rdropWhile Lines.isSpace := by
    obtain ⟨e, he⟩ : ∃ e, (s.dropWhile Lines.isSpace).rdropWhile Lines.isSpace ++ e =
        s.dropWhile Lines.isSpace :=
      List.rdropWhile_prefix _ _
    cases hr : (s.dropWhile Lines.isSpace).rdropWhile Lines.isSpace with
    | nil => rfl
    | cons c cs =>
      rw [hr, List.cons_append] at he
      have hc := List.dropWhile_get_zero_not Lines.isSpace s (by rw [← he]; exact Nat.succ_pos _)
      exact List.dropWhile_cons_of_neg (by simpa [← he] using hc)
  rw [hfirst, List.rdropWhile_idempotent]

theorem rewriteYamlScalar_eq {text : Text} {transform : Text → Option Text}
    (h : leafOf word path (splitlines text) = some (i, m)) {w : Text}
    (hw : transform m.value = some w) :
    rewriteYamlScalar word text path transform =
      ((splitlines text).set i (m.rewrite (lineAt (splitlines text) i) w)).flatten := by
  simp only [rewriteYamlScalar, h, hw]

/-- **Reading the result of a write.** -/
theorem leafOf_rewritten {text w : Text} (transform : Text → Option Text) (hw : IsScalar w)
    (h : leafOf word path (splitlines text) = some (i, m)) (ht : transform m.value = some w)
    (hends : LeafEnds word text path) :
    splitlines (rewriteYamlScalar word text path transform) =
        (splitlines text).set i (m.rewrite (lineAt (splitlines text) i) w) ∧
      leafOf word path (splitlines (rewriteYamlScalar word text path transform)) =
        some (i, m.written w) ∧
      ∀ path', path' ≠ path →
        readYamlScalar word (rewriteYamlScalar word text path transform) path' =
          readYamlScalar word text path' := by
  have hcut := (splitlines_rewrite hw h (hends i m h)).1
  rw [rewriteYamlScalar_eq h ht]
  refine ⟨hcut, ?_, fun path' hne => ?_⟩
  · rw [hcut, leafOf_set hw h]
  · rw [readYamlScalar, hcut, leafOf_set_other hw hne h, readYamlScalar]

/-- **What a write does.** The written value is read back and everything else stays, if and only
if the leaf's line ends as the writer expects and no white space stands at the ends of the value;
without a leaf or a replacement nothing is written. -/
theorem rewrite_reads_back (word : Char → Bool) (text : Text) (path : List Text)
    (transform : Text → Option Text) :
    (∀ v w, readYamlScalar word text path = some v → transform v = some w → IsScalar w →
      (Rewrites word text path w (rewriteYamlScalar word text path transform) ↔
        LeafEnds word text path ∧ stripText w = w)) ∧
    ((∀ v, readYamlScalar word text path = some v → transform v = none) →
      rewriteYamlScalar word text path transform = text) := by
  constructor
  · intro v w hread htransform hw
    obtain ⟨⟨i, m⟩, hleaf, hvalue⟩ := Option.map_eq_some_iff.1 hread
    obtain rfl : m.value = v := hvalue
    rw [rewriteYamlScalar_eq hleaf htransform]
    constructor
    · rintro ⟨hback, -, i', m0, line, m', hleaf', hlines, hmatch, -, -, hcomment, hend⟩
      rw [hleaf] at hleaf'
      cases hleaf'
      constructor
      · intro j n hjn
        rw [hleaf] at hjn
        cases hjn
        by_contra hcon
        obtain ⟨hplain, hnone⟩ := not_or.1 hcon
        rw [not_not] at hnone
        obtain ⟨hi, hline⟩ := leafOf_line hleaf
        -- the line of the result is the written one, and that has no end
        have hsame : line = m.rewrite (lineAt (splitlines text) i) w := by
          refine flatten_set_inj hi ?_
          rw [← hlines, splitlines_flatten]
        rw [lineAt_eq hi] at hsame hplain hend
        have hcut := (cut_splitlines text).ended_or (List.getElem_mem hi)
        have hnew : line = m.indent ++ m.key ++ [':', ' '] ++ w := by
          rw [hsame, KeyMatch.rewrite, hnone, content_of_not_plain hcut hplain, List.append_nil,
            List.append_nil]
        obtain ⟨c, hc⟩ : ∃ c, w.getLast? = some c :=
          ⟨_, List.getLast?_eq_some_getLast hw.ne_nil⟩
        have hlast : line.getLast? = some c := by
          rw [hnew, List.getLast?_append_of_ne_nil _ hw.ne_nil, hc]
        rw [lineEnd_of_last hlast (hw.oneLine c (List.mem_of_getLast? hc))] at hend
        refine hplain fun d hd => ?_
        rw [← hend] at hd
        cases hd
      · obtain ⟨⟨j, n⟩, -, hn⟩ := Option.map_eq_some_iff.1 hback
        obtain rfl : n.value = w := hn
        exact stripText_stripText _
    · rintro ⟨hends, hstrip⟩
      obtain ⟨hcut, hend⟩ := splitlines_rewrite hw hleaf (hends i m hleaf)
      obtain ⟨-, hback, hothers⟩ := leafOf_rewritten transform hw hleaf htransform hends
      rw [rewriteYamlScalar_eq hleaf htransform] at hback hothers
      obtain ⟨hi, hline⟩ := leafOf_line hleaf
      obtain ⟨hok, htext, -⟩ := lineShape_entry hline
      refine ⟨?_, hothers, i, m, _, m.written w, hleaf, hcut, ?_, rfl, rfl, written_comment hw,
        hend⟩
      · rw [readYamlScalar, hback, Option.map_some, written_value hw, hstrip]
      · rw [lineAt_eq hi, content_rewrite hw htext]
        exact mappingKeyLine_text hok _
  · intro hnone
    unfold rewriteYamlScalar
    dsimp only
    split
    · rfl
    · next i m hleaf =>
      have hread : readYamlScalar word text path = some m.value := by
        rw [readYamlScalar, hleaf, Option.map_some]
      rw [hnone m.value hread]

/-- **The next line is glued on**: a line separator ends the leaf's line. -/
theorem line_separator_lost :
    let word := fun c : Char => c.isAlphanum || c == '_'
    let text := "esphome:\u2028  name: a\u2028  friendly_name: b\n".toList
    let path := ["esphome".toList, "name".toList]
    readYamlScalar word text path = some ['a'] ∧ IsScalar ['c'] ∧
      ¬ Rewrites word text path ['c'] (rewriteYamlScalar word text path fun _ => some ['c']) := by
  refine ⟨by decide +kernel, ⟨fun c hc => by rw [List.mem_singleton.1 hc]; rfl,
    Or.inr (Or.inr ⟨⟨'c', [], rfl, rfl, by decide, by decide⟩, ?_, ?_, ?_⟩)⟩, fun h => ?_⟩
  · rintro c ⟨⟩
    rfl
  · intro a b cs h
    have hlen := congrArg List.length h
    simp at hlen
    omega
  · intro a cs h
    have hmem : ':' ∈ ['c'] := h ▸ List.mem_append_right _ List.mem_cons_self
    exact absurd hmem (by decide)
  · have hother := h.others ["esphome".toList, "friendly_name".toList] (by decide)
    exact absurd hother (by decide +kernel)

end DeviceBuilder
