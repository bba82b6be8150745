import DeviceBuilder.Helpers.YamlLines

/-!
# Inline handlers

`helpers/yaml/inline.py`: insert, replace or remove the `on_*:` block of a
component, of one of its sub-entities, or at a nested field path. Each edit
locates a mapping in the lines of the file (`Span`) and hands it to
`applyHandlerUpsert` or `applyHandlerRemove`.

* `locateComponentInstance`: the lines of the instance with a given id.
* `locateKeyBlock`, `descendFieldSegments`: from there into its fields.
* `upsertInlineHandler`, `upsertSubentityHandler`, `upsertNestedHandler`.
* `removeInlineHandler`, `removeSubentityHandler`, `removeNestedHandler`.
-/

namespace DeviceBuilder

open Lines

/-- `SubEntityRef`. -/
structure SubEntityRef where
  parentDomain : Text
  parentId : Text
  subKey : Text

/-- `_SpanFrame`; without the last field, the triple of a located instance. -/
structure Span where
  start : ℕ
  stop : ℕ
  childIndent : Text
  isListItem : Bool
  deriving DecidableEq

/-- `YamlUpsertNotSupportedError`:
"<key> has an inline value; rewrite it as a block mapping first". -/
structure YamlUpsertNotSupported where
  key : Text
  deriving DecidableEq

/-! ### Instances -/

/-- `synthetic_instance_index`. -/
def syntheticInstanceIndex (u : CharTable) (domain componentId : Text) : Option ℕ :=
  if startsWith componentId (domain ++ ['_']) then
    u.int? (componentId.drop (domain.length + 1))
  else none

/-- `_unquote_id`. -/
def unquoteId (raw : Text) : Text :=
  match raw with
  | c :: d :: rest =>
    if (c == '"' || c == '\'') && (d :: rest).getLast? == some c then (d :: rest).dropLast else raw
  | _ => raw

/-- `\s*(?P<id>\S+)` after `id:`. -/
def idToken (rest : Text) : Option Text :=
  let token := (rest.dropWhile Lines.isSpace).takeWhile nonSpace
  if token = [] then none else some token

/-- The `id` of a line on which `id:` stands right after `pre`. -/
def idAfter (pre s : Text) : Option Text :=
  if startsWith s (pre ++ ['i', 'd', ':']) then idToken (s.drop (pre.length + 3)) else none

/-- The `id` of a dash line: the pattern `DASH_KEY_PREFIX` followed by `id:`. -/
def idOnDash (s : Text) : Option Text :=
  match s.dropWhile Lines.isSpace with
  | '-' :: rest =>
    if rest.head?.any Lines.isSpace then idAfter [] (rest.dropWhile Lines.isSpace) else none
  | _ => none

/-- `_instance_declared_id`. -/
def instanceDeclaredId (lines : List Text) (start stop : ℕ) (childIndent : Text) : Option Text :=
  match idOnDash (content (lineAt lines start)) with
  | some raw => some (unquoteId raw)
  | none =>
    (((lines.take stop).drop start).findSome? fun l => idAfter childIndent (content l)).map unquoteId

/-- `_child_indent`. -/
def childIndentOf (lines : List Text) (start : ℕ) : Text :=
  leadingWs (lineAt lines start) ++ esphomeYamlIndent

/-- `_instance_bounds`. -/
def instanceBounds (lines : List Text) (itemStarts : List ℕ) (domainEnd : ℕ) : List Span :=
  (itemStarts.zip (itemStarts.drop 1 ++ [domainEnd])).map fun (start, stop) =>
    ⟨start, stop, childIndentOf lines start, true⟩

/-- `_locate_idless_instance`. -/
def locateIdlessInstance (u : CharTable) (lines : List Text) (domain componentId : Text)
    (bounds : List Span) : Option Span := do
  let idx ← syntheticInstanceIndex u domain componentId
  let bound ← bounds[idx]?
  if (instanceDeclaredId lines bound.start bound.stop bound.childIndent).isSome then none
  else some bound

/-- `_locate_singleton_instance`. -/
def locateSingletonInstance (lines : List Text) (domain componentId : Text)
    (domainStart domainEnd : ℕ) : Option Span :=
  let declared := instanceDeclaredId lines domainStart domainEnd esphomeYamlIndent
  if declared = some componentId ∨ (declared = none ∧ componentId = domain) then
    some ⟨domainStart, domainEnd, esphomeYamlIndent, false⟩
  else none

/-- `_locate_component_instance`. -/
def locateComponentInstance (u : CharTable) (lines : List Text) (domain componentId : Text) :
    Option Span := do
  let domainStart ← findBlockHeader lines domain
  let domainEnd := blockEndIndex u lines domainStart
  if blockBodyIsList lines domainStart domainEnd then
    let bounds := instanceBounds lines (topListItemStarts lines domainStart domainEnd) domainEnd
    match bounds.find? fun b =>
        instanceDeclaredId lines b.start b.stop b.childIndent == some componentId with
    | some b => some b
    | none => locateIdlessInstance u lines domain componentId bounds
  else locateSingletonInstance lines domain componentId domainStart domainEnd

/-- `_instance_frame`. -/
def instanceFrame (lines : List Text) (span : Span) : Span :=
  { span with
    isListItem := startsWith ((lineAt lines span.start).dropWhile Lines.isSpace) ['-', ' '] }

/-! ### Fields of an instance -/

/-- `_key_block_frame`. -/
def keyBlockFrame (lines : List Text) (start endBound : ℕ) (outerIndent : Text) : Span :=
  let stop := childBlockEnd lines start endBound outerIndent
  let child := (((lines.take stop).drop (start + 1)).find? fun l => !isGap l).map
    (leadingWs <| content ·)
  ⟨start, stop, child.getD (outerIndent ++ esphomeYamlIndent), false⟩

/-- `_locate_key_block`. -/
def locateKeyBlock (lines : List Text) (frame : Span) (key : Text) :
    Except YamlUpsertNotSupported (Option Span) :=
  let first := content (lineAt lines frame.start)
  let block := fun start => keyBlockFrame lines start frame.stop frame.childIndent
  if frame.isListItem && keyLine dashKeyPrefix key first then .ok (some (block frame.start))
  else if frame.isListItem && keyScalar dashKeyPrefix key first then .error ⟨key⟩
  else
    let header := fun l => keyHeader key frame.childIndent (content l)
    let scalar := fun l => keyScalar (lit frame.childIndent) key (content l)
    match ((lines.take frame.stop).drop frame.start).findIdx? fun l => header l || scalar l with
    | none => .ok none
    | some n =>
      if header (lineAt lines (frame.start + n)) then .ok (some (block (frame.start + n)))
      else .error ⟨key⟩

/-- `_descend_field_segments`; the deepest frame stands first. -/
def descendFieldSegments (u : CharTable) (lines : List Text) (frame : Span) :
    List Span → List Text → Except YamlUpsertNotSupported (Span × List Span)
  | below, [] => .ok (frame, below)
  | below, seg :: segs =>
    match u.int? seg with
    | some idx =>
      if blockBodyIsList lines frame.start frame.stop then
        match (instanceBounds lines (topListItemStarts lines frame.start frame.stop)
            frame.stop)[idx]? with
        | some item => descendFieldSegments u lines item (frame :: below) segs
        | none => .ok (frame, below)
      else .ok (frame, below)
    | none =>
      match locateKeyBlock lines frame seg with
      | .error e => .error e
      | .ok none => .ok (frame, below)
      | .ok (some block) => descendFieldSegments u lines block (frame :: below) segs

/-! ### The upserts -/

/-- `text.splitlines()`: the terminator of each line is dropped. -/
def dropTerminator (l : Text) : Text :=
  if ['\r', '\n'].isSuffixOf l then l.dropLast.dropLast
  else if l.getLast?.any isBreak then l.dropLast else l

/-- `_indent_block`. -/
def indentBlock (blockText indent : Text) : List Text :=
  (splitlines blockText).map fun l =>
    let line := dropTerminator l
    if line = [] then [] else indent ++ line

/-- `"\n".join(lines)`. -/
def joinLines (lines : List Text) : Text := List.intercalate ['\n'] lines

theorem joinLines_newline (rs : List Text) (h : rs ≠ []) :
    joinLines rs ++ ['\n'] = linesText rs := by
  induction rs with
  | nil => exact absurd rfl h
  | cons r rs ih =>
    cases rs with
    | nil => simp [joinLines, linesText, List.intercalate]
    | cons s rs =>
      have ih := ih (List.cons_ne_nil _ _)
      rw [linesText, List.map_cons, List.flatten_cons, ← linesText, ← ih]
      simp [joinLines, List.intercalate, List.intersperse]

/-- `_apply_handler_upsert`. -/
def applyHandlerUpsert (lines : List Text) (span : Span) (handlerKey renderedYaml : Text) :
    Text × YamlDiff :=
  let renderedText := joinLines (indentBlock renderedYaml span.childIndent) ++ ['\n']
  match ((lines.take span.stop).drop span.start).findIdx? fun l =>
      keyHeader handlerKey span.childIndent (content l) with
  | some n =>
    let handlerStart := span.start + n
    spliceLines lines handlerStart (childBlockEnd lines handlerStart span.stop span.childIndent)
      renderedText
  | none =>
    let insertAt := trimTrailingBlanks lines span.start span.stop
    spliceLines lines insertAt insertAt renderedText

/-- `upsert_inline_handler`. -/
def upsertInlineHandler (u : CharTable) (yamlText componentDomain componentId handlerKey
    renderedYaml : Text) : Option (Text × YamlDiff) :=
  let lines := splitlines yamlText
  (locateComponentInstance u lines componentDomain componentId).map fun span =>
    applyHandlerUpsert lines span handlerKey renderedYaml

/-- `_locate_subentity_instance`. -/
def locateSubentityInstance (u : CharTable) (lines : List Text) (ref : SubEntityRef) :
    Except YamlUpsertNotSupported (Option Span) :=
  match locateComponentInstance u lines ref.parentDomain ref.parentId with
  | none => .ok none
  | some span => locateKeyBlock lines (instanceFrame lines span) ref.subKey

/-- `upsert_subentity_handler`. -/
def upsertSubentityHandler (u : CharTable) (yamlText : Text) (ref : SubEntityRef)
    (handlerKey renderedYaml : Text) : Except YamlUpsertNotSupported (Option (Text × YamlDiff)) :=
  let lines := splitlines yamlText
  (locateSubentityInstance u lines ref).map fun span =>
    span.map fun span => applyHandlerUpsert lines span handlerKey renderedYaml

/-- The missing intermediate mappings around a rendered leaf. -/
def wrapSegments (remaining : List Text) (renderedYaml : Text) : Text :=
  remaining.foldr
    (fun seg rendered => seg ++ [':', '\n'] ++ joinLines (indentBlock rendered esphomeYamlIndent))
    renderedYaml

/-- `upsert_nested_handler`; the field path is `intermediates` and then `leafKey`. -/
def upsertNestedHandler (u : CharTable) (yamlText componentDomain componentId : Text)
    (intermediates : List Text) (leafKey renderedYaml : Text) :
    Except YamlUpsertNotSupported (Option (Text × YamlDiff)) :=
  let lines := splitlines yamlText
  match locateComponentInstance u lines componentDomain componentId with
  | none => .ok none
  | some span =>
    (descendFieldSegments u lines (instanceFrame lines span) [] intermediates).map
      fun (target, below) =>
        let remaining := intermediates.drop below.length
        match remaining with
        | [] => some (applyHandlerUpsert lines target leafKey renderedYaml)
        | seg :: _ =>
          if remaining.any fun seg => (u.int? seg).isSome then none
          else some (applyHandlerUpsert lines target seg (wrapSegments remaining renderedYaml))

/-! ### The removals -/

/-- `_locate_handler_range`. -/
def locateHandlerRange (lines : List Text) (span : Span) (handlerKey : Text) : Option (ℕ × ℕ) :=
  (((lines.take span.stop).drop span.start).findIdx? fun l =>
      keyHeader handlerKey span.childIndent (content l)).map fun n =>
    (span.start + n, childBlockEnd lines (span.start + n) span.stop span.childIndent)

/-- `_apply_handler_remove`. -/
def applyHandlerRemove (lines : List Text) (span : Span) (handlerKey : Text) :
    Option (Text × YamlDiff) :=
  (locateHandlerRange lines span handlerKey).map fun (start, stop) =>
    spliceLines lines start stop []

/-- `remove_inline_handler`. -/
def removeInlineHandler (u : CharTable) (yamlText componentDomain componentId handlerKey : Text) :
    Option (Text × YamlDiff) :=
  let lines := splitlines yamlText
  (locateComponentInstance u lines componentDomain componentId).bind fun span =>
    applyHandlerRemove lines span handlerKey

/-- `remove_subentity_handler`. -/
def removeSubentityHandler (u : CharTable) (yamlText : Text) (ref : SubEntityRef)
    (handlerKey : Text) : Except YamlUpsertNotSupported (Option (Text × YamlDiff)) :=
  let lines := splitlines yamlText
  (locateSubentityInstance u lines ref).map fun span =>
    span.bind fun span => applyHandlerRemove lines span handlerKey

/-- `emptied`: nothing stands inside the frame besides the lines to remove. -/
def emptied (lines : List Text) (frame : Span) (rmStart rmEnd : ℕ) : Bool :=
  ((List.range' (frame.start + 1) (frame.stop - (frame.start + 1))).filter fun idx =>
    !(rmStart ≤ idx && idx < rmEnd)).all fun idx => stripText (lineAt lines idx) == []

/-- A dash line without what follows its dash. -/
def bareDash (line : Text) : Text :=
  leadingWs (content line) ++ ['-'] ++ line.drop (content line).length

/-- The pruning loop of `remove_nested_handler`, from the deepest frame up: the lines to remove
and what takes their place. -/
def pruneFrames (lines : List Text) : List Span → ℕ → ℕ → ℕ × ℕ × Text
  | [], rmStart, rmEnd => (rmStart, rmEnd, [])
  | frame :: frames, rmStart, rmEnd =>
    if frame.isListItem || !emptied lines frame rmStart rmEnd then (rmStart, rmEnd, [])
    else if startsWith ((lineAt lines frame.start).dropWhile Lines.isSpace) ['-', ' '] then
      (frame.start, max rmEnd frame.stop, bareDash (lineAt lines frame.start))
    else pruneFrames lines frames frame.start (max rmEnd frame.stop)

/-- `remove_nested_handler`; the frame of the instance is the last of the stack. -/
def removeNestedHandler (u : CharTable) (yamlText componentDomain componentId : Text)
    (intermediates : List Text) (leafKey : Text) : Option (Text × YamlDiff) := do
  let lines := splitlines yamlText
  let span ← locateComponentInstance u lines componentDomain componentId
  let (target, below) ←
    (descendFieldSegments u lines (instanceFrame lines span) [] intermediates).toOption
  if below.length ≠ intermediates.length then none
  else
    let (start, stop) ← locateHandlerRange lines target leafKey
    let (rmStart, rmEnd, replacement) := pruneFrames lines (target :: below).dropLast start stop
    some (spliceLines lines rmStart rmEnd replacement)

end DeviceBuilder
