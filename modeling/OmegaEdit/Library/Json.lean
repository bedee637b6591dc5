import OmegaEdit.Library.Decimal

/-! JSON texts over UTF-16 code units: the grammar of RFC 8259 as a relation between
values and their spellings, and a reader. A number keeps its spelling; what number it
denotes is left to the language that reads it. An object keeps its members as they are
written, repeated names included. -/
namespace Json
open Utf16 Decimal

inductive Value where
  | null
  | bool (flag : Bool)
  | number (lexeme : Text)
  | string (text : Text)
  | array (elements : List Value)
  | object (members : List (Text × Value))
deriving Repr, Inhabited

abbrev quote : CodeUnit := 34
abbrev comma : CodeUnit := 44
abbrev colon : CodeUnit := 58
abbrev openBracket : CodeUnit := 91
abbrev backslash : CodeUnit := 92
abbrev closeBracket : CodeUnit := 93
abbrev openBrace : CodeUnit := 123
abbrev closeBrace : CodeUnit := 125

def isSpace (unit : CodeUnit) : Bool := unit == 32 || unit == 10 || unit == 13 || unit == 9

/-- The units of literals and numbers. -/
def isWordUnit (unit : CodeUnit) : Bool :=
  isDigit unit || (97 ≤ unit && unit ≤ 122) || unit == 69 || unit == 43 || unit == 45 || unit == 46

/-- The unit that stands for an escaped one. -/
def unescape (unit : CodeUnit) : Option CodeUnit :=
  if unit = 34 then some 34 else if unit = 92 then some 92 else if unit = 47 then some 47
  else if unit = 98 then some 8 else if unit = 102 then some 12 else if unit = 110 then some 10
  else if unit = 114 then some 13 else if unit = 116 then some 9 else none

def hexValue (unit : CodeUnit) : Option CodeUnit :=
  if 48 ≤ unit ∧ unit ≤ 57 then some (unit - 48)
  else if 97 ≤ unit ∧ unit ≤ 102 then some (unit - 87)
  else if 65 ≤ unit ∧ unit ≤ 70 then some (unit - 55)
  else none

/-- Read on in a hexadecimal number. -/
def hexFold (value : CodeUnit) (digits : Text) : Option CodeUnit :=
  digits.foldlM (fun value digit => (hexValue digit).map (value * 16 + ·)) value

/-- The unit that four hexadecimal digits name. -/
def hexUnit (a b c d : CodeUnit) : Option CodeUnit := hexFold 0 [a, b, c, d]

section Numbers

def isDigits (text : Text) : Bool := !text.isEmpty && text.all isDigit

def isExponent : Text → Bool
  | [] => true
  | unit :: rest =>
    (unit == 101 || unit == 69) &&
      match rest with
      | [] => false
      | sign :: digits => if sign == 43 || sign == 45 then isDigits digits else isDigits rest

def isFraction : Text → Bool
  | [] => true
  | unit :: rest =>
    if unit = 46 then
      !(rest.takeWhile isDigit).isEmpty && isExponent (rest.dropWhile isDigit)
    else isExponent (unit :: rest)

def isUnsigned (text : Text) : Bool :=
  let whole := text.takeWhile isDigit
  !whole.isEmpty && (whole.length == 1 || whole.head? != some 48) &&
    isFraction (text.dropWhile isDigit)

def isNumber : Text → Bool
  | [] => false
  | unit :: rest => if unit = 45 then isUnsigned rest else isUnsigned (unit :: rest)

end Numbers

/-- What a literal or a number spells. -/
def wordValue (word : Text) : Option Value :=
  if word = ascii "null" then some .null
  else if word = ascii "true" then some (.bool true)
  else if word = ascii "false" then some (.bool false)
  else if isNumber word then some (.number word)
  else none

/-- A part of a text: a value, or what follows the opening of a container that is not empty up to
and with its closing. -/
inductive Piece where
  | value (value : Value)
  | elements (elements : List Value)
  | members (members : List (Text × Value))

def Spaces (text : Text) : Prop := ∀ unit ∈ text, isSpace unit = true

/-- The unescaped text and its spelling between the quotes. -/
inductive Chars : Text → Text → Prop where
  | nil : Chars [] []
  | plain {unit : CodeUnit} {text raw : Text} (notQuote : unit ≠ quote)
      (notEscape : unit ≠ backslash) (printable : ¬ unit < 32) (rest : Chars text raw) :
      Chars (unit :: text) (unit :: raw)
  | escape {letter unit : CodeUnit} {text raw : Text} (short : letter ≠ 117)
      (escaped : unescape letter = some unit) (rest : Chars text raw) :
      Chars (unit :: text) (backslash :: letter :: raw)
  | hex {a b c d unit : CodeUnit} {text raw : Text} (escaped : hexUnit a b c d = some unit)
      (rest : Chars text raw) : Chars (unit :: text) (backslash :: 117 :: a :: b :: c :: d :: raw)

/-- The spellings of a part of a text. -/
inductive Spells : Piece → Text → Prop where
  | word {value : Value} {word : Text} (known : wordValue word = some value)
      (units : ∀ unit ∈ word, isWordUnit unit = true) : Spells (.value value) word
  | string {text raw : Text} (chars : Chars text raw) :
      Spells (.value (.string text)) (quote :: raw ++ [quote])
  | emptyArray {space : Text} (spaces : Spaces space) :
      Spells (.value (.array [])) (openBracket :: space ++ [closeBracket])
  | array {elements : List Value} {space raw : Text} (spaces : Spaces space)
      (inner : Spells (.elements elements) raw) :
      Spells (.value (.array elements)) (openBracket :: space ++ raw)
  | lastElement {value : Value} {raw space : Text} (element : Spells (.value value) raw)
      (spaces : Spaces space) : Spells (.elements [value]) (raw ++ space ++ [closeBracket])
  | element {value : Value} {elements : List Value} {raw space gap rest : Text}
      (element : Spells (.value value) raw) (spaces : Spaces space) (gaps : Spaces gap)
      (others : Spells (.elements elements) rest) :
      Spells (.elements (value :: elements)) (raw ++ space ++ comma :: gap ++ rest)
  | emptyObject {space : Text} (spaces : Spaces space) :
      Spells (.value (.object [])) (openBrace :: space ++ [closeBrace])
  | object {members : List (Text × Value)} {space raw : Text} (spaces : Spaces space)
      (inner : Spells (.members members) raw) :
      Spells (.value (.object members)) (openBrace :: space ++ raw)
  | lastMember {name key : Text} {value : Value} {before after raw space : Text}
      (named : Chars name key) (befores : Spaces before) (afters : Spaces after)
      (member : Spells (.value value) raw) (spaces : Spaces space) :
      Spells (.members [(name, value)])
        (quote :: key ++ [quote] ++ before ++ colon :: after ++ raw ++ space ++ [closeBrace])
  | member {name key : Text} {value : Value} {members : List (Text × Value)}
      {before after raw space gap rest : Text}
      (named : Chars name key) (befores : Spaces before) (afters : Spaces after)
      (member : Spells (.value value) raw) (spaces : Spaces space) (gaps : Spaces gap)
      (others : Spells (.members members) rest) :
      Spells (.members ((name, value) :: members))
        (quote :: key ++ [quote] ++ before ++ colon :: after ++ raw ++ space ++ comma :: gap ++ rest)

/-- A whole text and the value it spells. -/
def Denotes (text : Text) (value : Value) : Prop :=
  ∃ before raw after, Spaces before ∧ Spaces after ∧ Spells (.value value) raw ∧
    text = before ++ raw ++ after

def skipSpaces (text : Text) : Text := text.dropWhile isSpace

/-- Where the reader of a string is: outside escapes, after a backslash, or with a number of
hexadecimal digits to come after the next one. -/
inductive Escape where
  | outside
  | letter
  | hex (more : Nat) (value : CodeUnit)

/-- The characters up to the closing quote, and what follows it. -/
def readChars : Escape → Text → Option (Text × Text)
  | _, [] => none
  | .outside, unit :: rest =>
    if unit = quote then some ([], rest)
    else if unit = backslash then readChars .letter rest
    else if unit < 32 then none
    else do
      let (text, rest) ← readChars .outside rest
      some (unit :: text, rest)
  | .letter, unit :: rest =>
    if unit = 117 then readChars (.hex 3 0) rest
    else do
      let unit ← unescape unit
      let (text, rest) ← readChars .outside rest
      some (unit :: text, rest)
  | .hex more value, unit :: rest => do
    let digit ← hexValue unit
    match more with
    | 0 =>
      let (text, rest) ← readChars .outside rest
      some ((value * 16 + digit) :: text, rest)
    | more + 1 => readChars (.hex more (value * 16 + digit)) rest

/-- The parts that can be asked for. -/
inductive Goal where
  | value
  | elements
  | members

def readWord (text : Text) : Option (Piece × Text) := do
  let value ← wordValue (text.takeWhile isWordUnit)
  some (.value value, text.dropWhile isWordUnit)

def read : Nat → Goal → Text → Option (Piece × Text)
  | 0, _, _ => none
  | fuel + 1, .value, text =>
    match text with
    | [] => none
    | unit :: rest =>
      if unit = quote then do
        let (text, rest) ← readChars .outside rest
        some (.value (.string text), rest)
      else if unit = openBracket then
        match skipSpaces rest with
        | [] => none
        | next :: after =>
          if next = closeBracket then some (.value (.array []), after)
          else match read fuel .elements (next :: after) with
            | some (.elements elements, rest) => some (.value (.array elements), rest)
            | _ => none
      else if unit = openBrace then
        match skipSpaces rest with
        | [] => none
        | next :: after =>
          if next = closeBrace then some (.value (.object []), after)
          else match read fuel .members (next :: after) with
            | some (.members members, rest) => some (.value (.object members), rest)
            | _ => none
      else readWord (unit :: rest)
  | fuel + 1, .elements, text =>
    match read fuel .value text with
    | some (.value value, rest) =>
      match skipSpaces rest with
      | [] => none
      | next :: after =>
        if next = closeBracket then some (.elements [value], after)
        else if next = comma then
          match read fuel .elements (skipSpaces after) with
          | some (.elements elements, rest) => some (.elements (value :: elements), rest)
          | _ => none
        else none
    | _ => none
  | fuel + 1, .members, text =>
    match text with
    | [] => none
    | unit :: rest =>
      if unit ≠ quote then none
      else match readChars .outside rest with
        | none => none
        | some (name, rest) =>
          match skipSpaces rest with
          | [] => none
          | mark :: rest =>
            if mark ≠ colon then none
            else match read fuel .value (skipSpaces rest) with
              | some (.value value, rest) =>
                match skipSpaces rest with
                | [] => none
                | next :: after =>
                  if next = closeBrace then some (.members [(name, value)], after)
                  else if next = comma then
                    match read fuel .members (skipSpaces after) with
                    | some (.members members, rest) =>
                      some (.members ((name, value) :: members), rest)
                    | _ => none
                  else none
              | _ => none

/-- The value of a text, its objects as they are written. -/
def readText (text : Text) : Option Value :=
  match read (2 * text.length) .value (skipSpaces text) with
  | some (.value value, rest) => if (skipSpaces rest).isEmpty then some value else none
  | _ => none

/-- The array index a name stands for. Such names come first in an object, in their order. -/
def arrayIndex (name : Text) : Option Nat := (Decimal.parse name).filter (· < 4294967295)

/-- A new name comes before another one. -/
def precedes (name other : Text) : Bool :=
  match arrayIndex name, arrayIndex other with
  | some index, some otherIndex => decide (index < otherIndex)
  | some _, none => true
  | none, _ => false

/-- Define a member. A name that is there keeps its place and takes the new value. -/
def define (name : Text) (value : Value) : List (Text × Value) → List (Text × Value)
  | [] => [(name, value)]
  | (other, old) :: rest =>
    if other = name then (name, value) :: rest
    else if precedes name other then (name, value) :: (other, old) :: rest
    else (other, old) :: define name value rest

mutual

/-- The value as it is kept: one member for each name, with the last value given to it. -/
def Value.collapse : Value → Value
  | .array elements => .array (collapseElements elements)
  | .object members => .object (collapseMembers [] members)
  | value => value

def collapseElements : List Value → List Value
  | [] => []
  | value :: rest => value.collapse :: collapseElements rest

def collapseMembers (defined : List (Text × Value)) : List (Text × Value) → List (Text × Value)
  | [] => defined
  | (name, value) :: rest => collapseMembers (define name value.collapse defined) rest

end

/-- `JSON.parse`. -/
def parse (text : Text) : Option Value := (readText text).map Value.collapse

mutual

/-- The number of containers that stand one inside the other. -/
def Value.nesting : Value → Nat
  | .array elements => nestingElements elements + 1
  | .object members => nestingMembers members + 1
  | _ => 0

def nestingElements : List Value → Nat
  | [] => 0
  | value :: rest => max value.nesting (nestingElements rest)

def nestingMembers : List (Text × Value) → Nat
  | [] => 0
  | (_, value) :: rest => max value.nesting (nestingMembers rest)

end

mutual

/-- The depth of the values that stand deepest. -/
def Value.height : Value → Nat
  | .array elements => heightElements elements
  | .object members => heightMembers members
  | _ => 0

def heightElements : List Value → Nat
  | [] => 0
  | value :: rest => max (value.height + 1) (heightElements rest)

def heightMembers : List (Text × Value) → Nat
  | [] => 0
  | (_, value) :: rest => max (value.height + 1) (heightMembers rest)

end

mutual

/-- No object of the value repeats a name. -/
def Value.NoRepeats : Value → Prop
  | .array elements => NoRepeatsElements elements
  | .object members => (members.map Prod.fst).Nodup ∧ NoRepeatsMembers members
  | _ => True

def NoRepeatsElements : List Value → Prop
  | [] => True
  | value :: rest => value.NoRepeats ∧ NoRepeatsElements rest

def NoRepeatsMembers : List (Text × Value) → Prop
  | [] => True
  | (_, value) :: rest => value.NoRepeats ∧ NoRepeatsMembers rest

end

end Json
