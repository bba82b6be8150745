import DeviceBuilder.Helpers.YamlScalar

/-!
# Setting a leaf of a top-level block

`upsert_yaml_leaf_under_top_block` of `helpers/yaml/top_block.py`, with the rewrite
through a substitution of `helpers/yaml/substitution.py` and the scalar rendering of
`helpers/yaml/scalar.py`. What PyYAML's emitter does is a parameter (`Emitter`).
-/

namespace DeviceBuilder

open Lines

/-! ### Rendering a value -/

/-- PyYAML's part of `_safe_yaml_scalar`. -/
structure Emitter where
  /-- `analyze_scalar(value).allow_flow_plain`. -/
  allowFlowPlain : Text → Bool
  /-- The resolver gives the plain value the tag of a string. -/
  resolvesToStr : Text → Bool
  /-- `yaml.dump` with double quotes, as `_quote` calls it. -/
  dumpQuoted : Text → Text

/-- `_PLAIN_FAST_CHARS`. -/
def plainFastChar (c : Char) : Bool := c.isAlphanum || c ∈ ['_', '-', '.', '/', ' ']

/-- `_RESERVED_PLAIN`. -/
def reservedPlain : List Text :=
  ["true".toList, "false".toList, "null".toList, "yes".toList, "no".toList, "on".toList,
    "off".toList]

/-- `_plain_is_fast_safe`. -/
def plainIsFastSafe (value : Text) : Bool :=
  value.head?.any (·.isAlpha) && value.getLast?.all (· != ' ') &&
    !reservedPlain.contains (value.map Char.toLower) && value.all plainFastChar

/-- `_plain_is_safe`. -/
def Emitter.plainIsSafe (y : Emitter) (value : Text) : Bool :=
  value != [] && y.allowFlowPlain value && y.resolvesToStr value

/-- `_quote`. -/
def Emitter.quote (y : Emitter) (value : Text) : Text := (y.dumpQuoted value).rdropWhile (· == '\n')

/-- `_safe_yaml_scalar`. -/
def Emitter.safeYamlScalar (y : Emitter) (value : Text) : Text :=
  if plainIsFastSafe value || y.plainIsSafe value then value else y.quote value

/-! ### Substitutions -/

/-- `_strip_yaml_quotes`. -/
def stripYamlQuotes (value : Text) : Text :=
  match stripText value with
  | c :: cs =>
    if (c == '"' || c == '\'') && cs.getLast? == some c then cs.dropLast else c :: cs
  | [] => []

/-- `[A-Za-z_]\w*`. -/
def isRefName (word : Char → Bool) : Text → Bool
  | c :: cs => opensKey c && cs.all word
  | [] => false

/-- `parse_substitution_ref`. -/
def parseSubstitutionRef (word : Char → Bool) (value : Text) : Option Text :=
  match stripYamlQuotes value with
  | '$' :: '{' :: rest =>
    if rest.getLast? == some '}' && isRefName word rest.dropLast then some rest.dropLast else none
  | '$' :: name => if isRefName word name then some name else none
  | _ => none

def substitutions : Text := "substitutions".toList

/-- Where `rewrite_name_or_substitution` lands a value: at the substitution that the leaf
refers to if the file defines it, else at the leaf. -/
def targetPath (word : Char → Bool) (yamlText : Text) (leafPath : List Text) : List Text :=
  match (readYamlScalar word yamlText leafPath).bind (parseSubstitutionRef word) with
  | some var =>
    if (readYamlScalar word yamlText [substitutions, var]).isSome then [substitutions, var]
    else leafPath
  | none => leafPath

/-- `rewrite_name_or_substitution`. -/
def rewriteNameOrSubstitution (word : Char → Bool) (y : Emitter) (yamlText : Text)
    (leafPath : List Text) (newValue : Text) : Text :=
  rewriteYamlScalar word yamlText (targetPath word yamlText leafPath)
    fun _ => some (y.safeYamlScalar newValue)

/-! ### The block -/

/-- `YamlUpsertNotSupportedError`. -/
inductive UpsertError
  /-- `<block_key>: uses an inline value or flow-style mapping`. -/
  | inlineValue (blockKey : Text)
  deriving DecidableEq, Repr

/-- What `_locate_top_block` returns. -/
structure TopBlock where
  start : ℕ
  stop : ℕ
  indent : Text
  deriving DecidableEq, Repr

/-- `stripped.lstrip().startswith("#")`. -/
def isCommentText (stripped : Text) : Bool := startsWith (stripped.dropWhile Lines.isSpace) ['#']

/-- The group `rest` of a match of `header_re`. -/
def headerRest (blockKey stripped : Text) : Option Text :=
  if startsWith stripped (blockKey ++ [':']) then
    some ((stripped.drop (blockKey.length + 1)).dropWhile Lines.isSpace)
  else none

/-- The loop of `_locate_top_block` up to the header: its index, and the lines after it. -/
def findTopHeader (blockKey : Text) : ℕ → List Text → Except UpsertError (Option (ℕ × List Text))
  | _, [] => .ok none
  | i, line :: lines =>
    let stripped := content line
    if stripped == [] || isCommentText stripped then findTopHeader blockKey (i + 1) lines
    else match headerRest blockKey stripped with
      | none => findTopHeader blockKey (i + 1) lines
      | some rest =>
        if stripText (rest.takeWhile (· != '#')) == [] then .ok (some (i, lines))
        else .error (.inlineValue blockKey)

/-- The loop of `_locate_top_block` after the header: where the block ends, and the white space
in front of its first line that is neither empty nor a comment. -/
def scanBody (indent : Option Text) : ℕ → List Text → ℕ × Text
  | i, [] => (i, indent.getD esphomeYamlIndent)
  | i, line :: lines =>
    match content line with
    | [] => scanBody indent (i + 1) lines
    | c :: cs =>
      if !Lines.isSpace c then (i, indent.getD esphomeYamlIndent)
      else if isCommentText (c :: cs) || indent.isSome then scanBody indent (i + 1) lines
      else scanBody (some ((c :: cs).takeWhile Lines.isSpace)) (i + 1) lines

/-- `_locate_top_block`. -/
def locateTopBlock (lines : List Text) (blockKey : Text) : Except UpsertError (Option TopBlock) :=
  match findTopHeader blockKey 0 lines with
  | .error e => .error e
  | .ok none => .ok none
  | .ok (some (start, body)) =>
    let (stop, indent) := scanBody none (start + 1) body
    .ok (some ⟨start, stop, indent⟩)

/-! ### The upsert -/

/-- `"\r\n" in text`. -/
def hasCrlf : Text → Bool
  | '\r' :: '\n' :: _ => true
  | _ :: cs => hasCrlf cs
  | [] => false

/-- The newline style of `normalize_trailing_newline`. -/
def newlineStyle (yamlText : Text) : Text := if hasCrlf yamlText then ['\r', '\n'] else ['\n']

/-- The text of `normalize_trailing_newline`. -/
def normalizeTrailingNewline (yamlText : Text) : Text :=
  if yamlText.getLast?.all fun c => c == '\n' || c == '\r' then yamlText
  else yamlText ++ newlineStyle yamlText

/-- A line that `_find_prepend_anchor` passes. -/
def isDirective (line : Text) : Bool :=
  let stripped := stripText line
  stripped == [] || startsWith stripped ['%'] || startsWith stripped ['-', '-', '-']

/-- `_find_prepend_anchor`. -/
def findPrependAnchor (lines : List Text) : ℕ := (lines.takeWhile isDirective).length

/-- `_insert_top_block_at`. -/
def insertTopBlockAt (lines : List Text) (pos : ℕ) (block nl : Text) : Text :=
  let rest := (lines.drop pos).flatten
  let sep := if rest.head?.all fun c => c == '\n' || c == '\r' then [] else nl
  (lines.take pos).flatten ++ block ++ sep ++ rest

/-- `_prepend_top_block`. -/
def prependTopBlock (lines : List Text) (block nl : Text) : Text :=
  insertTopBlockAt lines (findPrependAnchor lines) block nl

/-- `upsert_yaml_leaf_under_top_block`. -/
def upsertYamlLeafUnderTopBlock (word : Char → Bool) (y : Emitter)
    (yamlText blockKey leafKey newValue : Text) : Except UpsertError Text :=
  let leafPath := [blockKey, leafKey]
  if (readYamlScalar word yamlText leafPath).isSome then
    .ok (rewriteNameOrSubstitution word y yamlText leafPath newValue)
  else
    let rendered := y.safeYamlScalar newValue
    let nl := newlineStyle yamlText
    let lines := splitlines (normalizeTrailingNewline yamlText)
    match locateTopBlock lines blockKey with
    | .error e => .error e
    | .ok none =>
      let block := blockKey ++ [':'] ++ nl ++ esphomeYamlIndent ++ leafKey ++ [':', ' '] ++
        rendered ++ nl
      .ok (prependTopBlock lines block nl)
    | .ok (some located) =>
      let insertAt := trimTrailingBlanks lines located.start located.stop
      let newLine := located.indent ++ leafKey ++ [':', ' '] ++ rendered ++ nl
      .ok (lines.take insertAt ++ newLine :: lines.drop insertAt).flatten

/-- The file after its editor: what the upsert returns is written, and nothing where it raises. -/
def afterUpsert (word : Char → Bool) (y : Emitter) (file blockKey leafKey newValue : Text) : Text :=
  match upsertYamlLeafUnderTopBlock word y file blockKey leafKey newValue with
  | .ok text => text
  | .error _ => file

end DeviceBuilder
