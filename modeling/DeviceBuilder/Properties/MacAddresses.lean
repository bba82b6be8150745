import Mathlib.Data.List.GetD
import DeviceBuilder.Helpers.MacAddresses

/-!
# Normal forms of MAC addresses

For which received texts `normalize_mac` keeps its promises, and what
`derive_interface_macs` makes of its results.

* `Hex12`: twelve hexadecimal digits; `Canonical`: six pairs of them, in upper case,
  joined by colons.
* `intHex_of_digits`: the parser takes plain digits. It takes more: `Lenient` is a
  text that passes the check although it is not twelve digits.
* `normalizeMac_of_hex12`, `normalizeMac_canonical`: the normal form, and that it is one.
* `normalize_mac_exact`: the result, for any collection of received texts.
-/

namespace DeviceBuilder

open Lines (Text)
open Numerals (Decimals asciiDecimals)

variable {u : Decimals} {t : UpperTable} {text digits v w : Text}

/-! ### Digits -/

def hexDigits : Text := hexAlphabet ++ "abcdef".toList

theorem hexDigit_plain : ∀ c ∈ hexDigits, c.toNat < 127 ∧ isAsciiSpace c = false ∧ c ≠ '+' ∧ c ≠ '-' ∧
    c ≠ '_' ∧ c ≠ 'X' ∧ c ≠ 'x' ∧ c ≠ ':' ∧ c ≠ '.' :=
  Lines.forall_of_all (by decide +kernel)

theorem hexDigit_upper : ∀ c ∈ hexDigits, c.toUpper ∈ hexAlphabet ∧ (hexValue c).isSome :=
  Lines.forall_of_all (by decide +kernel)

theorem hexAlphabet_upper : ∀ c ∈ hexAlphabet, c.toUpper = c ∧ c ∈ hexDigits :=
  Lines.forall_of_all (by decide +kernel)

theorem doubled_eq_false (h : '_' ∉ text) : doubled text = false := by
  induction text with
  | nil => rfl
  | cons c text ih =>
    have hc : c ≠ '_' := fun he => h (he ▸ List.mem_cons_self)
    rw [doubled]
    · exact ih fun hmem => h (List.mem_cons_of_mem _ hmem)
    · intro rest he _
      exact hc he

/-- Digits have no sign and no mark in front. -/
theorem readSign_of_digits (h : ∀ c ∈ text, c ∈ hexDigits) : readSign text = (1, text) := by
  have hhead : ∀ c, text.head? = some c → c ∈ hexDigits := fun c hc => h c (List.mem_of_head? hc)
  have hplus : text.head? ≠ some '+' := fun he => (hexDigit_plain _ (hhead _ he)).2.2.1 rfl
  have hminus : text.head? ≠ some '-' := fun he => (hexDigit_plain _ (hhead _ he)).2.2.2.1 rfl
  rw [readSign, if_neg hplus, if_neg hminus]

theorem skipHexMark_of_digits (h : ∀ c ∈ text, c ∈ hexDigits) : skipHexMark text = text := by
  have hmark : ∀ x : Char, (['0', x].isPrefixOf text) → x ∈ hexDigits := by
    intro x hx
    obtain ⟨rest, rfl⟩ := List.isPrefixOf_iff_prefix.1 hx
    exact h x (by simp)
  have hX : ¬ ['0', 'X'].isPrefixOf text :=
    fun hx => (hexDigit_plain _ (hmark _ hx)).2.2.2.2.2.1 rfl
  have hx : ¬ ['0', 'x'].isPrefixOf text :=
    fun hx => (hexDigit_plain _ (hmark _ hx)).2.2.2.2.2.2.1 rfl
  rw [skipHexMark, Bool.eq_false_iff.2 hX, Bool.eq_false_iff.2 hx]
  rfl

theorem intHex_of_digits (h : ∀ c ∈ text, c ∈ hexDigits) (hne : text ≠ []) :
    intHex u text = some (hexNumber text : ℤ) := by
  have hascii : text.map (toAscii u) = text := by
    refine (List.map_congr_left fun c hc => ?_).trans (List.map_id text)
    exact if_pos (hexDigit_plain c (h c hc)).1
  have hblank : text.dropWhile isAsciiSpace = text := by
    cases text with
    | nil => rfl
    | cons c text =>
      rw [List.dropWhile_cons, (hexDigit_plain c (h c List.mem_cons_self)).2.1]
      rfl
  have hrun : ∀ c ∈ text, isHexRun c := by
    intro c hc
    rw [isHexRun, (hexDigit_upper c (h c hc)).2, Bool.true_or]
  have hunder : '_' ∉ text := fun hmem => (hexDigit_plain _ (h _ hmem)).2.2.2.2.1 rfl
  have hhead : text.head? ≠ some '_' := fun he => hunder (List.mem_of_head? he)
  have hlast : text.getLast? ≠ some '_' := fun he => hunder (List.mem_of_getLast? he)
  have htake : text.takeWhile isHexRun = text := List.takeWhile_eq_self_iff.2 hrun
  have hdrop : text.dropWhile isHexRun = [] := List.dropWhile_eq_nil_iff.2 hrun
  unfold intHex
  rw [hascii, hblank, readSign_of_digits h]
  dsimp only
  rw [skipHexMark_of_digits h, htake, hdrop, if_neg, Int.one_mul]
  rintro (hnil | hbad | hbad | hbad | hbad)
  · exact hne hnil
  · exact hhead hbad
  · exact hlast hbad
  · rw [doubled_eq_false hunder] at hbad
    cases hbad
  · exact hbad rfl

/-! ### Normal forms -/

/-- Twelve hexadecimal digits, in either case. -/
def Hex12 (text : Text) : Prop := text.length = 12 ∧ ∀ c ∈ text, c ∈ hexDigits

/-- Six pairs of upper-case digits, joined by colons. -/
def Canonical (text : Text) : Prop :=
  ∃ pairs : List (Char × Char), pairs.length = 6 ∧
    (∀ p ∈ pairs, p.1 ∈ hexAlphabet ∧ p.2 ∈ hexAlphabet) ∧
    text = [':'].intercalate (pairs.map fun p => [p.1, p.2])

/-- Pairs of characters put in a row. -/
def unpair (pairs : List (Char × Char)) : Text := pairs.flatMap fun p => [p.1, p.2]

theorem exists_pairs {n : ℕ} (h : text.length = 2 * n) :
    ∃ pairs, pairs.length = n ∧ text = unpair pairs := by
  induction n generalizing text with
  | zero => exact ⟨[], rfl, List.length_eq_zero_iff.1 h⟩
  | succ n ih =>
    match text, h with
    | a :: b :: text, h =>
      have hlen : text.length = 2 * n := by
        rw [List.length_cons, List.length_cons] at h
        omega
      obtain ⟨pairs, hpairs, rfl⟩ := ih hlen
      exact ⟨(a, b) :: pairs, by rw [List.length_cons, hpairs], rfl⟩

/-- The slices of the source are the pairs. -/
theorem joinOctets_unpair {pairs : List (Char × Char)} (h : pairs.length = 6) :
    joinOctets (unpair pairs) = [':'].intercalate (pairs.map fun p => [p.1, p.2]) := by
  match pairs, h with
  | [_, _, _, _, _, _], _ => rfl

theorem strip_of_digits (h : ∀ c ∈ digits, c ∈ hexDigits) : stripSeparators digits = digits := by
  refine List.filter_eq_self.2 fun c hc => ?_
  have hplain := hexDigit_plain c (h c hc)
  have hdash : c ≠ '-' := hplain.2.2.2.1
  have hcolon : c ≠ ':' := hplain.2.2.2.2.2.2.2.1
  have hdot : c ≠ '.' := hplain.2.2.2.2.2.2.2.2
  simp [hdash, hcolon, hdot]

theorem strip_append (v w : Text) :
    stripSeparators (v ++ w) = stripSeparators v ++ stripSeparators w :=
  List.filter_append ..

/-- The separators of a normal form are those that were put in. -/
theorem strip_intercalate {pairs : List (Char × Char)}
    (h : ∀ p ∈ pairs, p.1 ∈ hexAlphabet ∧ p.2 ∈ hexAlphabet) :
    stripSeparators ([':'].intercalate (pairs.map fun p => [p.1, p.2])) = unpair pairs := by
  have hpair : ∀ p ∈ pairs, stripSeparators [p.1, p.2] = [p.1, p.2] := by
    intro p hp
    refine strip_of_digits fun c hc => ?_
    rw [List.mem_cons, List.mem_singleton] at hc
    obtain rfl | rfl := hc
    · exact (hexAlphabet_upper _ (h p hp).1).2
    · exact (hexAlphabet_upper _ (h p hp).2).2
  induction pairs with
  | nil => rfl
  | cons p pairs ih =>
    have hp := hpair p List.mem_cons_self
    have hrest := ih (fun q hq => h q (List.mem_cons_of_mem _ hq))
      fun q hq => hpair q (List.mem_cons_of_mem _ hq)
    cases pairs with
    | nil => simpa [unpair] using hp
    | cons q pairs =>
      rw [List.map_cons] at hrest
      rw [List.map_cons, List.map_cons, List.intercalate_cons_cons, strip_append, strip_append, hp,
        hrest]
      rfl

theorem upperText_of_digits (h : ∀ c ∈ digits, c ∈ hexDigits) :
    upperText t digits = digits.map Char.toUpper := by
  have hone : ∀ c ∈ digits, t.upper c = [c.toUpper] := by
    intro c hc
    have hlt := (hexDigit_plain c (h c hc)).1
    exact t.ascii c (by omega)
  rw [upperText, List.flatMap_congr hone]
  exact List.map_eq_flatMap.symm

theorem normalizeMac_of_hex12 (h : Hex12 (stripSeparators v)) :
    normalizeMac u t v = joinOctets ((stripSeparators v).map Char.toUpper) := by
  have hdigits : ∀ c ∈ (stripSeparators v).map Char.toUpper, c ∈ hexDigits := by
    intro c hc
    obtain ⟨d, hd, rfl⟩ := List.mem_map.1 hc
    exact (hexAlphabet_upper _ (hexDigit_upper d (h.2 d hd)).1).2
  have hlen : ((stripSeparators v).map Char.toUpper).length = 12 := by
    rw [List.length_map, h.1]
  have hne : (stripSeparators v).map Char.toUpper ≠ [] := List.ne_nil_of_length_eq_add_one hlen
  unfold normalizeMac
  dsimp only
  rw [upperText_of_digits h.2, if_neg (not_not_intro hlen), intHex_of_digits hdigits hne]

/-- Twelve digits in upper case are six pairs. -/
theorem pairs_of_hex12 (h : Hex12 digits) :
    ∃ pairs : List (Char × Char), pairs.length = 6 ∧
      (∀ p ∈ pairs, p.1 ∈ hexAlphabet ∧ p.2 ∈ hexAlphabet) ∧
      digits.map Char.toUpper = unpair pairs := by
  have hlen : (digits.map Char.toUpper).length = 2 * 6 := by
    rw [List.length_map, h.1]
  obtain ⟨pairs, hsix, hpairs⟩ := exists_pairs hlen
  have hmem : ∀ c ∈ unpair pairs, c ∈ hexAlphabet := by
    intro c hc
    rw [← hpairs] at hc
    obtain ⟨d, hd, rfl⟩ := List.mem_map.1 hc
    exact (hexDigit_upper d (h.2 d hd)).1
  refine ⟨pairs, hsix, fun p hp => ?_, hpairs⟩
  have hin : ∀ c ∈ [p.1, p.2], c ∈ unpair pairs := fun c hc => List.mem_flatMap.2 ⟨p, hp, hc⟩
  exact ⟨hmem _ (hin _ (by simp)), hmem _ (hin _ (by simp))⟩

theorem canonical_of_hex12 (h : Hex12 digits) :
    Canonical (joinOctets (digits.map Char.toUpper)) := by
  obtain ⟨pairs, hlen, hin, hpairs⟩ := pairs_of_hex12 h
  exact ⟨pairs, hlen, hin, by rw [hpairs, joinOctets_unpair hlen]⟩

theorem canonical_ne_nil (h : Canonical text) : text ≠ [] := by
  obtain ⟨pairs, hlen, -, rfl⟩ := h
  match pairs, hlen with
  | [_, _, _, _, _, _], _ => exact List.cons_ne_nil _ _

/-- A normal form is its own normal form. -/
theorem normalizeMac_canonical (h : Canonical text) : normalizeMac u t text = text := by
  obtain ⟨pairs, hlen, hpairs, rfl⟩ := h
  have hstrip := strip_intercalate hpairs
  have hupper : ∀ c ∈ unpair pairs, c ∈ hexAlphabet := by
    intro c hc
    obtain ⟨p, hp, hc⟩ := List.mem_flatMap.1 hc
    rw [List.mem_cons, List.mem_singleton] at hc
    obtain rfl | rfl := hc
    · exact (hpairs p hp).1
    · exact (hpairs p hp).2
  have hhex : Hex12 (unpair pairs) := by
    refine ⟨?_, fun c hc => (hexAlphabet_upper c (hupper c hc)).2⟩
    match pairs, hlen with
    | [_, _, _, _, _, _], _ => rfl
  have hfixed : (unpair pairs).map Char.toUpper = unpair pairs := by
    refine (List.map_congr_left fun c hc => ?_).trans (List.map_id _)
    exact (hexAlphabet_upper c (hupper c hc)).1
  rw [normalizeMac_of_hex12 (hstrip ▸ hhex), hstrip, hfixed, joinOctets_unpair hlen]

/-- The digits can be read off their normal form. -/
theorem strip_joinOctets (h : Hex12 digits) :
    stripSeparators (joinOctets (digits.map Char.toUpper)) = digits.map Char.toUpper := by
  obtain ⟨pairs, hlen, hin, hpairs⟩ := pairs_of_hex12 h
  rw [hpairs, joinOctets_unpair hlen, strip_intercalate hin]

/-! ### The other interfaces -/

theorem hexOctet_mem (n : ℕ) : ∃ a b, hexOctet n = [a, b] ∧ a ∈ hexAlphabet ∧ b ∈ hexAlphabet := by
  have hget : ∀ i, hexAlphabet.getD i '0' ∈ hexAlphabet := by
    intro i
    by_cases hi : i < hexAlphabet.length
    · rw [List.getD_eq_getElem _ _ hi]
      exact List.getElem_mem hi
    · rw [List.getD_eq_default _ _ (Nat.le_of_not_lt hi)]
      decide +kernel
  exact ⟨_, _, rfl, hget _, hget _⟩

/-- The last octet of a normal form, and what stands before it. -/
theorem Canonical.split (h : Canonical text) : ∃ a b, text.length = 17 ∧ lastOctet text = [a, b] ∧
    a ∈ hexAlphabet ∧ b ∈ hexAlphabet ∧
    ∀ c d, c ∈ hexAlphabet → d ∈ hexAlphabet →
      Canonical (text.take (text.length - 2) ++ [c, d]) := by
  obtain ⟨pairs, hlen, hin, rfl⟩ := h
  match pairs, hlen with
  | [p₁, p₂, p₃, p₄, p₅, p₆], _ =>
    have hlast := hin p₆ (by simp)
    refine ⟨p₆.1, p₆.2, rfl, rfl, hlast.1, hlast.2, fun c d hc hd => ?_⟩
    refine ⟨[p₁, p₂, p₃, p₄, p₅, (c, d)], rfl, fun p hp => ?_, rfl⟩
    simp only [List.mem_cons, List.not_mem_nil, or_false] at hp hin
    obtain rfl | rfl | rfl | rfl | rfl | rfl := hp
    · exact hin _ (.inl rfl)
    · exact hin _ (.inr (.inl rfl))
    · exact hin _ (.inr (.inr (.inl rfl)))
    · exact hin _ (.inr (.inr (.inr (.inl rfl))))
    · exact hin _ (.inr (.inr (.inr (.inr (.inl rfl)))))
    · exact ⟨hc, hd⟩

theorem canonical_offset (h : Canonical text) (offset : ℕ) :
    Canonical ((offsetLastOctet u text offset).getD []) := by
  obtain ⟨a, b, -, hlast, ha, hb, hput⟩ := h.split
  have hdigits : ∀ c ∈ [a, b], c ∈ hexDigits := by
    intro c hc
    rw [List.mem_cons, List.mem_singleton] at hc
    obtain rfl | rfl := hc
    · exact (hexAlphabet_upper _ ha).2
    · exact (hexAlphabet_upper _ hb).2
  unfold offsetLastOctet
  rw [hlast, intHex_of_digits hdigits (List.cons_ne_nil _ _), Option.map_some, Option.getD_some]
  obtain ⟨c, d, hoctet, hc, hd⟩ := hexOctet_mem ((hexNumber [a, b] + offset : ℤ) % 256).toNat
  rw [hoctet]
  exact hput c d hc hd

/-- What is asked of each address that `derive_interface_macs` returns. -/
def EmptyOrCanonical (text : Text) : Prop := text = [] ∨ Canonical text

theorem deriveInterfaceMacs_canonical (h : EmptyOrCanonical text) (platform : Text)
    (integrations : List Text) :
    EmptyOrCanonical (deriveInterfaceMacs u text platform integrations).1 ∧
      EmptyOrCanonical (deriveInterfaceMacs u text platform integrations).2 := by
  have hempty : EmptyOrCanonical [] := .inl rfl
  obtain rfl | hcanonical := h
  · exact ⟨hempty, hempty⟩
  have hif : ∀ (b : Bool) {mac : Text}, EmptyOrCanonical mac →
      EmptyOrCanonical (if b then mac else []) := by
    intro b mac hmac
    cases b
    · exact hempty
    · exact hmac
  unfold deriveInterfaceMacs
  split
  · exact ⟨hempty, hempty⟩
  split
  · have hoffset := canonical_offset (u := u) hcanonical
    exact ⟨hif _ (.inr (hoffset 3)), hif _ (.inr (hoffset 2))⟩
  split
  · exact ⟨hif _ (.inr hcanonical), hempty⟩
  · exact ⟨hempty, hempty⟩

/-! ### Exactly the plain texts -/

/-- A text that passes the check of `normalize_mac` although it is not twelve digits. -/
def Lenient (u : Decimals) (t : UpperTable) (v : Text) : Prop :=
  (upperText t (stripSeparators v)).length = 12 ∧
    (intHex u (upperText t (stripSeparators v))).isSome ∧ ¬ Hex12 (stripSeparators v)

theorem normalizeMac_ne_nil_of_lenient (h : Lenient u t v) : normalizeMac u t v ≠ [] := by
  obtain ⟨hlen, hsome, -⟩ := h
  obtain ⟨n, hn⟩ := Option.isSome_iff_exists.1 hsome
  unfold normalizeMac
  dsimp only
  rw [if_neg (not_not_intro hlen), hn]
  obtain ⟨pairs, hsix, hpairs⟩ := exists_pairs (n := 6) hlen
  rw [hpairs, joinOctets_unpair hsix]
  match pairs, hsix with
  | [_, _, _, _, _, _], _ => exact List.cons_ne_nil _ _

theorem hex12_of_not_lenient (h : ¬ Lenient u t v) (hne : normalizeMac u t v ≠ []) :
    Hex12 (stripSeparators v) := by
  by_contra hhex
  unfold normalizeMac at hne
  dsimp only at hne
  split at hne
  · exact hne rfl
  · next hlen =>
    split at hne
    · exact hne rfl
    · next n hn =>
      exact h ⟨not_not.1 hlen, hn ▸ rfl, hhex⟩

/-- The same twelve digits up to case, where the separators are taken out. -/
def SameDigits (v w : Text) : Prop :=
  Hex12 (stripSeparators v) ∧ Hex12 (stripSeparators w) ∧
    (stripSeparators v).map Char.toUpper = (stripSeparators w).map Char.toUpper

/-- What `normalize_mac` promises of one received text, and `derive_interface_macs` then. -/
structure Normalizes (u : Decimals) (t : UpperTable) (v : Text) : Prop where
  form : EmptyOrCanonical (normalizeMac u t v)
  idempotent : normalizeMac u t (normalizeMac u t v) = normalizeMac u t v
  derived (platform : Text) (integrations : List Text) :
    EmptyOrCanonical (deriveInterfaceMacs u (normalizeMac u t v) platform integrations).1 ∧
      EmptyOrCanonical (deriveInterfaceMacs u (normalizeMac u t v) platform integrations).2

theorem normalizes_of_not_lenient (h : ¬ Lenient u t v) : Normalizes u t v := by
  have hform : EmptyOrCanonical (normalizeMac u t v) := by
    by_cases hne : normalizeMac u t v = []
    · exact .inl hne
    have hhex := hex12_of_not_lenient h hne
    rw [normalizeMac_of_hex12 hhex]
    exact .inr (canonical_of_hex12 hhex)
  refine ⟨hform, ?_, deriveInterfaceMacs_canonical hform⟩
  obtain hnil | hcanonical := hform
  · rw [hnil]
    rfl
  · exact normalizeMac_canonical hcanonical

theorem same_iff_of_not_lenient (hv : ¬ Lenient u t v) (hw : ¬ Lenient u t w) :
    (normalizeMac u t v = normalizeMac u t w ∧ normalizeMac u t v ≠ []) ↔ SameDigits v w := by
  constructor
  · rintro ⟨heq, hne⟩
    have hhv := hex12_of_not_lenient hv hne
    have hhw := hex12_of_not_lenient hw (heq ▸ hne)
    rw [normalizeMac_of_hex12 hhv, normalizeMac_of_hex12 hhw] at heq
    refine ⟨hhv, hhw, ?_⟩
    rw [← strip_joinOctets hhv, ← strip_joinOctets hhw, heq]
  · rintro ⟨hhv, hhw, heq⟩
    rw [normalizeMac_of_hex12 hhv, normalizeMac_of_hex12 hhw, heq]
    exact ⟨rfl, canonical_ne_nil (canonical_of_hex12 hhw)⟩

/-- **Normal forms** are sound, stable and faithful on a collection of received texts exactly
if the lenient parser meets none in it that is not twelve digits. -/
theorem normalize_mac_exact (u : Decimals) (t : UpperTable) (received : Text → Prop) :
    ((∀ v, received v → Normalizes u t v) ∧
      ∀ v w, received v → received w →
        ((normalizeMac u t v = normalizeMac u t w ∧ normalizeMac u t v ≠ []) ↔ SameDigits v w)) ↔
    ∀ v, received v → ¬ Lenient u t v := by
  constructor
  · rintro ⟨-, hsame⟩ v hv hlenient
    have hself := (hsame v v hv hv).1 ⟨rfl, normalizeMac_ne_nil_of_lenient hlenient⟩
    exact hlenient.2.2 hself.1
  · intro h
    exact ⟨fun v hv => normalizes_of_not_lenient (h v hv),
      fun v w hv hw => same_iff_of_not_lenient (h v hv) (h w hw)⟩

/-- Upper case in ASCII alone. -/
def plainUpper : UpperTable where
  upper c := [c.toUpper]
  ascii _ _ := rfl

/-- `0x1234567890` has a normal form that is no address. -/
theorem normalize_mac_hex_mark :
    normalizeMac asciiDecimals plainUpper "0x1234567890".toList = "0X:12:34:56:78:90".toList ∧
      ¬ Normalizes asciiDecimals plainUpper "0x1234567890".toList := by
  have hform : normalizeMac asciiDecimals plainUpper "0x1234567890".toList =
      "0X:12:34:56:78:90".toList := by
    decide +kernel
  refine ⟨hform, fun h => ?_⟩
  obtain hnil | ⟨pairs, hlen, hin, hpairs⟩ := h.form
  · rw [hform] at hnil
    revert hnil
    decide +kernel
  · rw [hform] at hpairs
    match pairs, hlen with
    | [p₁, p₂, p₃, p₄, p₅, p₆], _ =>
      have hX : p₁.2 = 'X' := by
        injection hpairs with _ htail
        injection htail with hsecond _
        exact hsecond.symm
      have hmem := (hin p₁ List.mem_cons_self).2
      rw [hX] at hmem
      revert hmem
      decide +kernel

end DeviceBuilder
