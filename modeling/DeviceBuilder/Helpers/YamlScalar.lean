import DeviceBuilder.Helpers.YamlLines

/-!
# Scalars of a YAML file

`read_yaml_scalar` and `rewrite_yaml_scalar` of `helpers/yaml/scalar.py`: one walker
over the lines of a config file, which keeps the stack of the keys that enclose the
line, looks for the leaf of a path of mapping keys; the reader returns its raw value
and the writer replaces it.

* `Mode`, `commentAt`: the scan of `_split_value_and_comment`, one character a step.
* `LineShape`: what the walker sees in a line; `findLeaf` is its loop.
-/

namespace DeviceBuilder

open Lines

/-! ### The value and the comment -/

/-- Where the scan of a value stands, by its variables `quote` and `started`. -/
inductive Mode
  /-- Nothing of the scalar was seen. -/
  | lead
  /-- In a `!tag` or an `&anchor`, which `_token_end` runs over. -/
  | token
  /-- The scalar has started, and no quote is open. -/
  | plain
  /-- Between quotes. -/
  | quoted (q : Char)
  /-- Between double quotes after a backslash. -/
  | escaped
  /-- After a single quote between single quotes: it closes, unless another one follows. -/
  | closing
  deriving DecidableEq, Repr

/-- A member of `" \t"`. -/
def isBlank (c : Char) : Bool := c == ' ' || c == '\t'

def Mode.next : Mode → Char → Mode
  | .lead, c =>
    if isBlank c then .lead
    else if c == '!' || c == '&' then .token
    else if c == '"' || c == '\'' then .quoted c
    else .plain
  | .token, c => if isBlank c then .lead else .token
  | .plain, _ => .plain
  | .quoted q, c =>
    if c == '\\' && q == '"' then .escaped
    else if c == q then (if q == '\'' then .closing else .plain)
    else .quoted q
  | .escaped, _ => .quoted '"'
  | .closing, c => if c == '\'' then .quoted '\'' else .plain

/-- No quote is open, and no tag. -/
def Mode.open : Mode → Bool
  | .lead | .plain => true
  | _ => false

/-- The index of the `#` that opens a comment; `prev` is the character before. -/
def commentAt (mode : Mode) (prev : Option Char) : Text → Option ℕ
  | [] => none
  | ch :: rest =>
    if mode.open && ch == '#' && prev.any isBlank then some 0
    else (commentAt (mode.next ch) (some ch) rest).map (· + 1)

/-- `_split_value_and_comment`. -/
def splitValueAndComment (rest : Text) : Text × Text :=
  match commentAt .lead none rest with
  | some i =>
    let value := (rest.take i).rdropWhile isBlank
    (value, rest.drop value.length)
  | none => (rest, [])

/-! ### The lines -/

/-- A match of `_MAPPING_KEY_LINE`. -/
structure KeyMatch where
  indent : Text
  key : Text
  rest : Text
  deriving DecidableEq, Repr

/-- `[A-Za-z_]`. -/
def opensKey (c : Char) : Bool := c.isAlpha || c == '_'

/-- `[\w-]`, where `word` is the class `\w`, of which the colon is no member. -/
def inKey (word : Char → Bool) (c : Char) : Bool := word c && c != ':' || c == '-'

/-- `_MAPPING_KEY_LINE.match`. No member of a run of the pattern begins what follows the run,
so each run is as long as it can be. -/
def mappingKeyLine (word : Char → Bool) (body : Text) : Option KeyMatch :=
  match body.dropWhile Lines.isSpace with
  | [] => none
  | c :: cs =>
    match cs.dropWhile (inKey word) with
    | ':' :: rest =>
      if opensKey c then some ⟨body.takeWhile Lines.isSpace, c :: cs.takeWhile (inKey word), rest⟩
      else none
    | _ => none

/-- `_LIST_FRAME`. -/
def listFrame : Text := ['-', 'l', 'i', 's', 't', '-']

/-- What the walker does at a line. -/
inductive LineShape
  /-- A blank line or a comment: skipped. -/
  | gap
  /-- A list item: opens the list frame. -/
  | item (indent : ℕ)
  /-- Another line: closes frames. -/
  | other (indent : ℕ)
  /-- A mapping key. -/
  | entry (indent : ℕ) (m : KeyMatch)
  deriving DecidableEq, Repr

def lineShape (word : Char → Bool) (line : Text) : LineShape :=
  let body := content line
  let head := lstripBlanks body
  let indent := body.length - head.length
  if head == [] || startsWith head ['#'] then .gap
  else if startsWith head ['-', ' '] || head == ['-'] then .item indent
  else match mappingKeyLine word body with
    | none => .other indent
    | some m => .entry indent m

/-! ### The walker -/

/-- The enclosing frames with their indents, the innermost first. -/
abbrev Frames := List (ℕ × Text)

/-- The frames that a line at `indent` leaves open. -/
def Frames.enclosing (stack : Frames) (indent : ℕ) : Frames :=
  stack.dropWhile (indent ≤ ·.1)

/-- The keys of the frames, the outermost first. -/
def Frames.keys (stack : Frames) : List Text := (stack.map (·.2)).reverse

/-- The loop of `rewrite_yaml_scalar` up to the leaf: its line and its match. -/
def findLeaf (word : Char → Bool) (parents : List Text) (leafKey : Text) :
    Frames → List Text → Option (ℕ × KeyMatch)
  | _, [] => none
  | stack, line :: lines =>
    match lineShape word line with
    | .gap => (findLeaf word parents leafKey stack lines).map fun r => (r.1 + 1, r.2)
    | .item n =>
      (findLeaf word parents leafKey ((n, listFrame) :: stack.enclosing n) lines).map
        fun r => (r.1 + 1, r.2)
    | .other n =>
      (findLeaf word parents leafKey (stack.enclosing n) lines).map fun r => (r.1 + 1, r.2)
    | .entry n m =>
      if m.key = leafKey ∧ (stack.enclosing n).keys = parents then some (0, m)
      else (findLeaf word parents leafKey ((n, m.key) :: stack.enclosing n) lines).map
        fun r => (r.1 + 1, r.2)

/-- The leaf of `path` in `lines`; an empty path has none. -/
def leafOf (word : Char → Bool) (path : List Text) (lines : List Text) : Option (ℕ × KeyMatch) :=
  match path.getLast? with
  | none => none
  | some leafKey => findLeaf word path.dropLast leafKey [] lines

/-- The raw value of a match. -/
def KeyMatch.value (m : KeyMatch) : Text := stripText (splitValueAndComment m.rest).1

/-- The trailing comment of a match, with the blanks before it. -/
def KeyMatch.comment (m : KeyMatch) : Text := (splitValueAndComment m.rest).2

/-- The line of a match with another value. -/
def KeyMatch.rewrite (m : KeyMatch) (line replacement : Text) : Text :=
  m.indent ++ m.key ++ [':', ' '] ++ replacement ++ m.comment ++ line.drop (content line).length

/-- `rewrite_yaml_scalar`. -/
def rewriteYamlScalar (word : Char → Bool) (yamlText : Text) (path : List Text)
    (transform : Text → Option Text) : Text :=
  let lines := splitlines yamlText
  match leafOf word path lines with
  | none => yamlText
  | some (i, m) =>
    match transform m.value with
    | none => yamlText
    | some replacement => (lines.set i (m.rewrite (lineAt lines i) replacement)).flatten

/-- `read_yaml_scalar`. -/
def readYamlScalar (word : Char → Bool) (yamlText : Text) (path : List Text) : Option Text :=
  (leafOf word path (splitlines yamlText)).map (·.2.value)

end DeviceBuilder
