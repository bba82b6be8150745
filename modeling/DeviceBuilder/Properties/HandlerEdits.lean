import DeviceBuilder.Properties.HandlerRemovals

/-!
# The edits of handlers

* `handler_edits`: upserts are idempotent and undone by removals, and keep what is around them.
* `handler_edits_nested`, `removal_prunes_empty`: a handler below a mapping with a field, and
  below one without.
-/

namespace DeviceBuilder

open Lines

variable {u : CharTable}

/-- What holds after an upsert into a mapping: `again` is the text after the same upsert of the
new text, `removed` the text after the removal of the handler from it, and `fresh` says that the
old text did not have the handler. -/
structure EditLaws (text new : Text) (range : ℕ × ℕ) (again removed : Option Text)
    (fresh : Prop) : Prop where
  again : again = some new
  kept : KeepsLines (splitlines text) range.1 range.2 (splitlines new)
  undone : fresh → removed = some text

/-- **The edits of handlers**: an upsert is idempotent, keeps the lines around the handler and is
undone by the removal of the handler it inserted, unless that leaves its mapping empty; a removal
at a field path takes away the handler and the mappings that it empties. -/
theorem handler_edits (hu : u.isalpha ' ' = false) :
    (∀ text domain componentId key rendered new diff, IsFieldName domain → IsHandlerKey key →
      IsHandlerBlock key rendered → PlainBlanks (splitlines text) →
      upsertInlineHandler u text domain componentId key rendered = some (new, diff) →
      ∃ f, locateComponentInstance u (splitlines text) domain componentId = some f ∧
        EditLaws text new (upsertRange (splitlines text) f key)
          ((upsertInlineHandler u new domain componentId key rendered).map Prod.fst)
          ((removeInlineHandler u new domain componentId key).map Prod.fst)
          (removeInlineHandler u text domain componentId key = none)) ∧
    (∀ text ref key rendered new diff block, IsFieldName ref.parentDomain →
      IsFieldName ref.subKey → IsHandlerKey key → IsHandlerBlock key rendered →
      PlainBlanks (splitlines text) →
      locateSubentityInstance u (splitlines text) ref = .ok (some block) →
      TakesKeys (splitlines text) block →
      upsertSubentityHandler u text ref key rendered = .ok (some (new, diff)) →
      EditLaws text new (upsertRange (splitlines text) block key)
        ((upsertSubentityHandler u new ref key rendered).toOption.join.map Prod.fst)
        ((removeSubentityHandler u new ref key).toOption.join.map Prod.fst)
        (removeSubentityHandler u text ref key = .ok none)) ∧
    (∀ text domain componentId intermediates key rendered new diff span target below,
      IsFieldName domain → (∀ seg ∈ intermediates, IsHandlerKey seg) → IsHandlerKey key →
      IsHandlerBlock key rendered → PlainBlanks (splitlines text) →
      locateComponentInstance u (splitlines text) domain componentId = some span →
      descendFieldSegments u (splitlines text) (instanceFrame (splitlines text) span) []
        intermediates = .ok (target, below) →
      (below ≠ [] → TakesKeys (splitlines text) target) →
      (∀ g ∈ below, DashesNested (splitlines text) g) →
      upsertNestedHandler u text domain componentId intermediates key rendered =
        .ok (some (new, diff)) →
      EditLaws text new
        (upsertRange (splitlines text) target ((intermediates.drop below.length).head?.getD key))
        ((upsertNestedHandler u new domain componentId intermediates key
          rendered).toOption.join.map Prod.fst)
        ((removeNestedHandler u new domain componentId intermediates key).map Prod.fst)
        (removeNestedHandler u text domain componentId intermediates key = none ∧
          MappingSurvives (splitlines text) target below)) ∧
    ∀ text domain componentId intermediates key new diff, IsFieldName domain →
      (∀ seg ∈ intermediates, IsFieldName seg) → IsFieldName key →
      removeNestedHandler u text domain componentId intermediates key = some (new, diff) →
      ∃ span target below start stop lo hi replacement,
        locateComponentInstance u (splitlines text) domain componentId = some span ∧
        descendFieldSegments u (splitlines text) (instanceFrame (splitlines text) span) []
          intermediates = .ok (target, below) ∧
        locateHandlerRange (splitlines text) target key = some (start, stop) ∧
        (new, diff) = spliceLines (splitlines text) lo hi replacement ∧
        RemovesOnly (splitlines text) span target below start stop lo hi replacement := by
  refine ⟨?_, ?_, ?_, ?_⟩
  · intro text domain componentId key rendered new diff hd hk hr hplain h
    obtain ⟨hagain, ⟨f, hf, hkept⟩, hundone⟩ := inline_upsert hu hd hk.1 hk.2 hr hplain h
    exact ⟨f, hf, hagain, hkept, hundone⟩
  · intro text ref key rendered new diff block hd hs hk hr hplain hloc ht h
    obtain ⟨hagain, hkept, hundone⟩ := subentity_upsert hu hd hs hk.1 hk.2 hr hplain hloc ht h
    refine ⟨?_, hkept, fun hfresh => ?_⟩
    · cases hup : upsertSubentityHandler u new ref key rendered with
      | error e =>
        rw [hup] at hagain
        cases hagain
      | ok r =>
        rw [hup] at hagain
        exact Except.ok.inj hagain
    · have hremoved := hundone hfresh
      cases hrm : removeSubentityHandler u new ref key with
      | error e =>
        rw [hrm] at hremoved
        cases hremoved
      | ok r =>
        rw [hrm] at hremoved
        exact Except.ok.inj hremoved
  · intro text domain componentId intermediates key rendered new diff span target below hd hsegs hk
      hr hplain hspan hdesc htake hnest h
    obtain ⟨hagain, hkept, hundone⟩ :=
      nested_upsert hu hd hsegs hk hr hplain hspan hdesc htake hnest h
    refine ⟨?_, hkept, fun hfresh => hundone hfresh.1 hfresh.2⟩
    cases hup : upsertNestedHandler u new domain componentId intermediates key rendered with
    | error e =>
      rw [hup] at hagain
      cases hagain
    | ok r =>
      rw [hup] at hagain
      exact Except.ok.inj hagain
  · intro text domain componentId intermediates key new diff hd hsegs hk h
    exact nested_removal hd hsegs hk h

theorem pressHandler_isHandlerBlock : IsHandlerBlock "on_press".toList pressHandler := by
  refine ⟨"on_press:".toList, ["  then:".toList, "    - delay: 1s".toList], by decide +kernel,
    by decide +kernel, by decide +kernel, fun last hl => ?_⟩
  cases hl
  decide +kernel

/-- A light with an empty mapping. -/
def lightWithInner : Text := "light:\n  - id: l\n    inner:\n".toList

/-- A light with a field beside it. -/
def lightWithField : Text := "light:\n  - id: l\n    inner:\n      a: 1".toList

/-- A handler that is put below a mapping that has a field. -/
theorem handler_edits_nested :
    ∃ new diff, upsertNestedHandler asciiTable lightWithField "light".toList "l".toList
        ["inner".toList, "outer".toList] "on_press".toList pressHandler = .ok (some (new, diff)) ∧
      ((upsertNestedHandler asciiTable new "light".toList "l".toList
        ["inner".toList, "outer".toList] "on_press".toList pressHandler).toOption.join.map
          Prod.fst) = some new ∧
      (removeNestedHandler asciiTable new "light".toList "l".toList
        ["inner".toList, "outer".toList] "on_press".toList).map Prod.fst = some lightWithField := by
  have hname : ∀ {key : Text}, key ≠ [] →
      (key.all fun c => c.isAlphanum || c == '_') = true → key ≠ ['i', 'd'] → IsHandlerKey key :=
    fun h1 h2 h3 => ⟨isFieldName_of_all h1 h2, h3⟩
  have hup : ∃ new diff, upsertNestedHandler asciiTable lightWithField "light".toList "l".toList
      ["inner".toList, "outer".toList] "on_press".toList pressHandler = .ok (some (new, diff)) :=
    ⟨("light:\n  - id: l\n    inner:\n      a: 1\n      outer:\n        on_press:\n" ++
        "          then:\n            - delay: 1s").toList, ⟨5, 4, ("      outer:\n" ++
        "        on_press:\n          then:\n            - delay: 1s\n").toList⟩,
      by decide +kernel⟩
  obtain ⟨new, diff, hup⟩ := hup
  have hlaws := (handler_edits (u := asciiTable) (by decide)).2.2.1 lightWithField "light".toList
    "l".toList ["inner".toList, "outer".toList] "on_press".toList pressHandler new diff
    ⟨1, 4, "    ".toList, true⟩ ⟨2, 4, "      ".toList, false⟩ [⟨1, 4, "    ".toList, true⟩]
    (isFieldName_of_all (by decide) (by decide)) (fun seg hseg => by
      rcases List.mem_cons.1 hseg with rfl | hseg
      · exact hname (by decide) (by decide) (by decide)
      · rw [List.mem_singleton.1 hseg]
        exact hname (by decide) (by decide) (by decide))
    (hname (by decide) (by decide) (by decide)) pressHandler_isHandlerBlock ?_ (by decide +kernel)
    (by decide +kernel) (fun _ => Or.inr (by decide +kernel)) ?_ hup
  · exact ⟨new, diff, hup, hlaws.again, hlaws.undone ⟨by decide +kernel,
      Or.inr (Or.inr ⟨3, by decide, by decide, by decide +kernel⟩)⟩⟩
  · show ∀ l ∈ splitlines lightWithField, _
    decide +kernel
  · intro g hg
    rw [List.mem_singleton.1 hg]
    intro i h1 h2
    obtain rfl | rfl : i = 2 ∨ i = 3 := by
      have h1' : 1 < i := h1
      have h2' : i < 4 := h2
      omega
    all_goals decide +kernel

/-- An upsert of a text and the same upsert of what comes out differ. -/
def changesAgain (upsert : Text → Option Text) (text : Text) : Bool :=
  match upsert text with
  | none => false
  | some new => upsert new != some new

/-- Where the mapping was empty, the removal of the handler takes it away too. Nor does an upsert
find its handler again behind a block that ends in a blank line, behind a blank line that a tab
indents, in a mapping whose body is a list, or in an item left of its list. -/
theorem removal_prunes_empty :
    (∃ new diff back, upsertNestedHandler asciiTable lightWithInner "light".toList "l".toList
        ["inner".toList] "on_press".toList pressHandler = .ok (some (new, diff)) ∧
      removeNestedHandler asciiTable lightWithInner "light".toList "l".toList ["inner".toList]
        "on_press".toList = none ∧
      (removeNestedHandler asciiTable new "light".toList "l".toList ["inner".toList]
        "on_press".toList).map Prod.fst = some back ∧
      removeSuffix '\n' back ≠ removeSuffix '\n' lightWithInner) ∧
    changesAgain (fun text => (upsertInlineHandler asciiTable text "sensor".toList "b".toList
      "on_press".toList "on_press:\n  - lambda: |+\n      x();\n\n".toList).map Prod.fst)
      "sensor:\n  - id: b\n".toList = true ∧
    changesAgain (fun text => (upsertInlineHandler asciiTable text "sensor".toList "b".toList
      "on_press".toList pressHandler).map Prod.fst) "sensor:\n  - id: b\n     \t\n".toList = true ∧
    changesAgain (fun text => (upsertSubentityHandler asciiTable text
      ⟨"light".toList, "l".toList, "inner".toList⟩ "on_press".toList
      pressHandler).toOption.join.map Prod.fst)
      "light:\n  - id: l\n    inner:\n    - a: 1\n".toList = true ∧
    changesAgain (fun text => (upsertNestedHandler asciiTable text "sensor".toList "b".toList
      ["v".toList, "0".toList, "0".toList] "on_press".toList
      "on_press:\n- delay: 1s\n".toList).toOption.join.map Prod.fst)
      "sensor:\n  - id: b\n    v:\n        - x:\n      - a: 1\n".toList = true :=
  ⟨⟨("light:\n  - id: l\n    inner:\n      on_press:\n        then:\n" ++
      "          - delay: 1s\n").toList, ⟨4, 3, ("      on_press:\n        then:\n" ++
      "          - delay: 1s\n").toList⟩, "light:\n  - id: l\n".toList, by decide +kernel,
    by decide +kernel, by decide +kernel, by decide +kernel⟩, by decide +kernel,
    by decide +kernel, by decide +kernel, by decide +kernel⟩

end DeviceBuilder
