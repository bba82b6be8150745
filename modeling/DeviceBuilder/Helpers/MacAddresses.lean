import DeviceBuilder.Lib.Lines
import DeviceBuilder.Lib.Numerals

/-!
# MAC addresses

`helpers/mac_addresses.py`: `normalize_mac`, and the addresses of the other interfaces
that `derive_interface_macs` takes from the primary one.

* `intHex`: `int(text, 16)`, which takes more than digits: blanks around them, a sign,
  a `0x` in front, single underscores, and the digits of any script.
* `UpperTable`: `str.upper`, one character at a time; some become several.
-/

namespace DeviceBuilder

open Lines (Text)
open Numerals (Decimals)

/-! ### `int(text, 16)` -/

def hexAlphabet : Text := "0123456789ABCDEF".toList

def hexValue (c : Char) : Option ℕ := hexAlphabet.findIdx? (· == c.toUpper)

/-- A character as the parser sees it: any blank is a space, any digit one of ASCII. -/
def toAscii (u : Decimals) (c : Char) : Char :=
  if c.toNat < 127 then c
  else if Lines.isSpace c then ' '
  else match u.value c with
    | some d => d.digitChar
    | none => '?'

/-- `isspace` of C. -/
def isAsciiSpace (c : Char) : Bool := c == ' ' || ('\t' ≤ c && c ≤ '\r')

/-- The sign, and what follows it. -/
def readSign (text : Text) : ℤ × Text :=
  if text.head? = some '+' then (1, text.tail)
  else if text.head? = some '-' then (-1, text.tail)
  else (1, text)

/-- Past a `0x`, and past one underscore behind it. -/
def skipHexMark (text : Text) : Text :=
  if ['0', 'X'].isPrefixOf text || ['0', 'x'].isPrefixOf text then
    if (text.drop 2).head? = some '_' then text.drop 3 else text.drop 2
  else text

/-- Two underscores next to each other. -/
def doubled : Text → Bool
  | '_' :: '_' :: _ => true
  | _ :: text => doubled text
  | [] => false

def isHexRun (c : Char) : Bool := (hexValue c).isSome || c == '_'

/-- The number that the digits write. -/
def hexNumber (run : Text) : ℕ := (run.filterMap hexValue).foldl (16 * · + ·) 0

/-- `int(text, 16)`; `none` stands for the `ValueError`. -/
def intHex (u : Decimals) (text : Text) : Option ℤ :=
  let (sign, text) := readSign ((text.map (toAscii u)).dropWhile isAsciiSpace)
  let text := skipHexMark text
  let run := text.takeWhile isHexRun
  if run = [] ∨ run.head? = some '_' ∨ run.getLast? = some '_' ∨ doubled run ∨
      ¬ (text.dropWhile isHexRun).all isAsciiSpace then none
  else some (sign * hexNumber run)

/-! ### `normalize_mac` -/

/-- What `str.upper` makes of each character. -/
structure UpperTable where
  upper : Char → Text
  ascii : ∀ c : Char, c.toNat < 128 → upper c = [c.toUpper]

/-- `value.translate(_MAC_SEPARATORS)`. -/
def stripSeparators (value : Text) : Text :=
  value.filter fun c => c != ':' && c != '-' && c != '.'

/-- `text.upper()`. -/
def upperText (t : UpperTable) (text : Text) : Text := text.flatMap t.upper

/-- `":".join(stripped[i : i + 2] for i in range(0, 12, 2))`. -/
def joinOctets (stripped : Text) : Text :=
  [':'].intercalate ((List.range' 0 6 2).map fun i => (stripped.drop i).take 2)

variable (u : Decimals) (t : UpperTable)

/-- `normalize_mac`. -/
def normalizeMac (value : Text) : Text :=
  let stripped := upperText t (stripSeparators value)
  if stripped.length ≠ 12 then []
  else match intHex u stripped with
    | none => []
    | some _ => joinOctets stripped

/-! ### `derive_interface_macs` -/

/-- `_ESP32_PLATFORMS`. -/
def esp32Platforms : List Text :=
  ["esp32".toList, "esp32s2".toList, "esp32s3".toList, "esp32c3".toList, "esp32c6".toList,
    "esp32h2".toList, "esp32p4".toList]

/-- `_SINGLE_MAC_PLATFORMS`. -/
def singleMacPlatforms : List Text := ["rp2350".toList, "rp2040".toList, "rp2".toList]

/-- `_has_ethernet`. -/
def hasEthernet (loadedIntegrations : List Text) : Bool :=
  loadedIntegrations.contains "ethernet".toList

/-- `_has_bluetooth`. -/
def hasBluetooth (loadedIntegrations : List Text) : Bool :=
  loadedIntegrations.any fun name =>
    "esp32_ble".toList.isPrefixOf name || "bluetooth_".toList.isPrefixOf name

/-- `primary[-2:]`. -/
def lastOctet (primary : Text) : Text := primary.drop (primary.length - 2)

/-- `f"{n:02X}"`, where `n` is below 256. -/
def hexOctet (n : ℕ) : Text :=
  [hexAlphabet.getD (n / 16) '0', hexAlphabet.getD (n % 16) '0']

/-- `_offset_last_octet`; `none` stands for the `ValueError`. -/
def offsetLastOctet (primary : Text) (offset : ℕ) : Option Text :=
  (intHex u (lastOctet primary)).map fun last : ℤ =>
    primary.take (primary.length - 2) ++ hexOctet ((last + offset) % 256).toNat

theorem lawfulBEq_text : LawfulBEq Text := inferInstance

attribute [local instance] lawfulBEq_text

/-- `derive_interface_macs`: the addresses for Ethernet and for Bluetooth. -/
def deriveInterfaceMacs (primary targetPlatform : Text) (loadedIntegrations : List Text) :
    Text × Text :=
  if primary.length ≠ 17 ∨ (intHex u (lastOctet primary)).isNone then ([], [])
  else if targetPlatform ∈ esp32Platforms then
    -- the last octet was read above, so `_offset_last_octet` does not raise
    ((if hasEthernet loadedIntegrations then (offsetLastOctet u primary 3).getD [] else []),
      if hasBluetooth loadedIntegrations then (offsetLastOctet u primary 2).getD [] else [])
  else if targetPlatform ∈ singleMacPlatforms then
    ((if hasEthernet loadedIntegrations then primary else []), [])
  else ([], [])

end DeviceBuilder
