import Mathlib.Data.List.Basic
import Mathlib.Tactic.Common

/-! Text as a sequence of UTF-16 code units, the way a script language stores it. -/
namespace Utf16

abbrev CodeUnit := UInt16

abbrev Text := List CodeUnit

instance : LawfulBEq Text := inferInstance

/-- The units of an ASCII literal. -/
def ascii (literal : String) : Text := literal.toList.map fun char => char.toNat.toUInt16

/-- The first unit of a surrogate pair. -/
def isHigh (unit : CodeUnit) : Bool := 0xd800 ≤ unit && unit ≤ 0xdbff

/-- The second unit of a surrogate pair. -/
def isLow (unit : CodeUnit) : Bool := 0xdc00 ≤ unit && unit ≤ 0xdfff

/-- The number of bytes of the text in UTF-8. A surrogate without its partner is
written as the replacement character, in three bytes. -/
def utf8Length : Text → Nat
  | [] => 0
  | [unit] => if unit < 0x80 then 1 else if unit < 0x800 then 2 else 3
  | unit :: next :: rest =>
    if unit < 0x80 then 1 + utf8Length (next :: rest)
    else if unit < 0x800 then 2 + utf8Length (next :: rest)
    else if isHigh unit && isLow next then 4 + utf8Length rest
    else 3 + utf8Length (next :: rest)

/-- The text as it is shown in a message. -/
def display (text : Text) : String := String.ofList (characters text)
where
  characters : Text → List Char
    | [] => []
    | [unit] => [Char.ofNat unit.toNat]
    | unit :: next :: rest =>
      if isHigh unit && isLow next then
        Char.ofNat (0x10000 + (unit.toNat - 0xd800) * 0x400 + (next.toNat - 0xdc00)) ::
          characters rest
      else Char.ofNat unit.toNat :: characters (next :: rest)

/-- The white space and line ends that trimming removes. -/
def isBlank (unit : CodeUnit) : Bool :=
  (9 ≤ unit && unit ≤ 13) || unit == 0x20 || unit == 0xa0 || unit == 0x1680 ||
    (0x2000 ≤ unit && unit ≤ 0x200a) || unit == 0x2028 || unit == 0x2029 || unit == 0x202f ||
    unit == 0x205f || unit == 0x3000 || unit == 0xfeff

def trim (text : Text) : Text := ((text.dropWhile isBlank).reverse.dropWhile isBlank).reverse

/-- The lower case of a unit, as far as the result is ASCII. -/
def lower (unit : CodeUnit) : CodeUnit :=
  if 65 ≤ unit ∧ unit ≤ 90 then unit + 32 else if unit = 0x212a then 0x6b else unit

/-- The order of texts by their units. -/
def precedesOrSame : Text → Text → Bool
  | [], _ => true
  | _ :: _, [] => false
  | unit :: rest, other :: others =>
    if unit = other then precedesOrSame rest others else decide (unit < other)

end Utf16
