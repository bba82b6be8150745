import Mathlib.Data.List.Basic

/-!
# Version-match policies

The offloader's version gate of `helpers/version_compat.py`. Version strings are
ASCII (PEP 440) where the gate reads them character by character.
-/

namespace DeviceBuilder

inductive VersionMatchPolicy
  | any
  | release
  | exact
  | exactRequired
  deriving DecidableEq, Repr

/-- The parts of `s` between dots (`str.split(".")`). -/
def splitDots : List Char → List (List Char)
  | [] => [[]]
  | '.' :: cs => [] :: splitDots cs
  | c :: cs =>
    match splitDots cs with
    | [] => [[c]]
    | p :: ps => (c :: p) :: ps

/-- `_release_key`: the year and the leading digits of the month (the month itself without any). -/
def releaseKey (version : String) : List Char × List Char :=
  let parts := splitDots version.toList
  let year := parts.headD []
  let monthRaw := parts.tail.headD []
  let digits := monthRaw.takeWhile Char.isDigit
  (year, if digits = [] then monthRaw else digits)

/-- Same `YYYY.MM` release line; an unknown version on either side matches. -/
def majorVersionsMatch (loc peer : String) : Bool :=
  loc = "" || peer = "" || loc = peer || releaseKey loc = releaseKey peer

def versionsMatchExactly (loc peer : String) : Bool := loc = "" || peer = "" || loc = peer

def versionSatisfiesPolicy (loc peer : String) : VersionMatchPolicy → Bool
  | .any => true
  | .release => majorVersionsMatch loc peer
  | .exact => versionsMatchExactly loc peer
  | .exactRequired => loc ≠ "" && peer ≠ "" && loc = peer

/-- The states of the matcher for `\d+(\.\d+)*((a|b|rc)\d+)?`. -/
inductive PinnableState
  | part
  | digits
  | r
  | pre
  | preDigits
  | dead
  deriving DecidableEq, Repr

def PinnableState.next : PinnableState → Char → PinnableState
  | .part, c => if c.isDigit then .digits else .dead
  | .digits, c =>
    if c.isDigit then .digits else if c = '.' then .part
    else if c = 'a' ∨ c = 'b' then .pre else if c = 'r' then .r else .dead
  | .r, c => if c = 'c' then .pre else .dead
  | .pre, c => if c.isDigit then .preDigits else .dead
  | .preDigits, c => if c.isDigit then .preDigits else .dead
  | .dead, _ => .dead

/-- A plain release or an a/b/rc pre-release: the shapes that pin to `pip install esphome==<v>`. -/
def isPinnableVersion (version : String) : Bool :=
  match version.toList.foldl PinnableState.next .part with
  | .digits | .preDigits => true
  | _ => false

example : isPinnableVersion "2026.7.0b3" = true ∧ isPinnableVersion "2026.8.0-dev" = false := by decide

end DeviceBuilder
