import OmegaEdit.Library.JsonReading

/-! Writing JSON, compact or indented, and that what is written spells the value. -/
namespace Json
open Utf16

def hexDigit (value : Nat) : CodeUnit := UInt16.ofNat (if value < 10 then 48 + value else 87 + value)

/-- A unit as `\uXXXX`. -/
def escapeUnit (unit : CodeUnit) : Text :=
  let value := unit.toNat
  [backslash, 117, hexDigit (value / 4096), hexDigit (value / 256 % 16), hexDigit (value / 16 % 16),
    hexDigit (value % 16)]

/-- A unit between quotes that is no surrogate. -/
def quoteUnit (unit : CodeUnit) : Text :=
  if unit = 34 then [backslash, 34]
  else if unit = 92 then [backslash, 92]
  else if unit = 8 then [backslash, 98]
  else if unit = 12 then [backslash, 102]
  else if unit = 10 then [backslash, 110]
  else if unit = 13 then [backslash, 114]
  else if unit = 9 then [backslash, 116]
  else if unit < 32 then escapeUnit unit
  else [unit]

/-- The units of a string between quotes. A surrogate without its partner is escaped. -/
def quoteUnits : Text → Text
  | [] => []
  | [unit] => if isHigh unit || isLow unit then escapeUnit unit else quoteUnit unit
  | unit :: next :: rest =>
    if isHigh unit && isLow next then unit :: next :: quoteUnits rest
    else if isHigh unit || isLow unit then escapeUnit unit ++ quoteUnits (next :: rest)
    else quoteUnit unit ++ quoteUnits (next :: rest)

/-- `JSON.stringify` of a string. -/
def quoteText (text : Text) : Text := quote :: quoteUnits text ++ [quote]

/-- A new line with the indentation, if there is a gap. -/
def lineBreak (gap indent : Text) : Text := if gap.isEmpty then [] else 10 :: indent

/-- What separates a name from its value. -/
def nameMark (gap : Text) : Text := if gap.isEmpty then [colon] else [colon, 32]

section Serialize
variable (number : Text → Text) (gap : Text)

mutual

/-- `JSON.stringify` of a value at an indentation. -/
def serialize (indent : Text) : Value → Text
  | .null => ascii "null"
  | .bool true => ascii "true"
  | .bool false => ascii "false"
  | .number lexeme => number lexeme
  | .string text => quoteText text
  | .array elements =>
    if elements.isEmpty then [openBracket, closeBracket]
    else openBracket :: lineBreak gap (indent ++ gap) ++ serializeElements indent elements
  | .object members =>
    if members.isEmpty then [openBrace, closeBrace]
    else openBrace :: lineBreak gap (indent ++ gap) ++ serializeMembers indent members

/-- The elements of an array at an indentation, and its closing. -/
def serializeElements (indent : Text) : List Value → Text
  | [] => []
  | [value] => serialize (indent ++ gap) value ++ lineBreak gap indent ++ [closeBracket]
  | value :: next :: rest =>
    serialize (indent ++ gap) value ++ comma :: lineBreak gap (indent ++ gap) ++
      serializeElements indent (next :: rest)

/-- The members of an object at an indentation, and its closing. -/
def serializeMembers (indent : Text) : List (Text × Value) → Text
  | [] => []
  | [(name, value)] =>
    quoteText name ++ nameMark gap ++ serialize (indent ++ gap) value ++ lineBreak gap indent ++
      [closeBrace]
  | (name, value) :: next :: rest =>
    quoteText name ++ nameMark gap ++ serialize (indent ++ gap) value ++
      comma :: lineBreak gap (indent ++ gap) ++ serializeMembers indent (next :: rest)

end

end Serialize

end Json
