import OmegaEdit.ChangeLog.Cursor

/-! The streaming scanner of change-log documents. It cuts the raw text of one property
or entry at a time out of the input and hands it to the parser. Each round of its loops
uses up input, so the length of the input bounds the number of rounds. -/
namespace OmegaEdit.ChangeLog
open Utf16 Json

/-- A container that is open in the search for repeated names. -/
inductive Container where
  | array
  | object (keys : List Text)

/-- A string has ended: if it names a member of the innermost object, the name is noted there. -/
def noteName (context : String) (body rest : Text) (stack : List Container) :
    Except CodecError (List Container) :=
  match stack with
  | .object keys :: below =>
    if (skipSpaces rest).head? = some colon then
      match parse (quote :: body ++ [quote]) with
      | some (.string key) =>
        if key ∈ keys then
          .error ⟨"CHANGE_LOG_DUPLICATE_PROPERTY",
            context ++ " property " ++ display (quoteText key) ++ " is duplicated"⟩
        else .ok (.object (key :: keys) :: below)
      | _ => .ok stack
    else .ok stack
  | _ => .ok stack

/-- The search for repeated names. Inside a string, the state is whether the next unit is escaped,
and the string so far. -/
def findRepeats (context : String) (stack : List Container) :
    Option (Bool × Text) → Text → Except CodecError Unit
  | _, [] => .ok ()
  | none, unit :: rest =>
    if unit = openBrace then findRepeats context (.object [] :: stack) none rest
    else if unit = openBracket then findRepeats context (.array :: stack) none rest
    else if unit = closeBrace ∨ unit = closeBracket then findRepeats context stack.tail none rest
    else if unit = quote then findRepeats context stack (some (false, [])) rest
    else findRepeats context stack none rest
  | some (escaped, body), unit :: rest =>
    if escaped then findRepeats context stack (some (false, body ++ [unit])) rest
    else if unit = backslash then findRepeats context stack (some (true, body ++ [unit])) rest
    else if unit = quote then do
      let stack ← noteName context body rest stack
      findRepeats context stack none rest
    else findRepeats context stack (some (false, body ++ [unit])) rest

def assertNoDuplicateJsonProperties (raw : Text) (context : String) : Except CodecError Unit :=
  findRepeats context [] none raw

section Raw
variable (engine : Engine)

def parseRawJson (raw : Text) (context : String) : Except CodecError Value := do
  assertNoDuplicateJsonProperties raw context
  match parse raw with
  | some value => .ok value
  | none => .error (invalidJson (context ++ ": " ++ engine.syntaxError raw))

end Raw

/-- The properties of a document that have been scanned. -/
structure Scanned where
  document : Document
  seenProperties : List Text
  sawChanges : Bool
  entries : List NormalizedEntry
  accumulator : ScanAccumulator

def Scanned.initial : Scanned := ⟨⟨[], []⟩, [], false, [], .initial⟩

/-- No scan takes more rounds than its input has units. -/
def tooManyRounds : CodecError := ⟨"CHANGE_LOG_INVALID_JSON", "Change log input is used up"⟩

namespace Source
variable {S : Type} (source : Source S) (engine : Engine) (limits : CodecLimits)

def readPropertyName (input : S) : Except CodecError (Text × S) := do
  let (raw, input) ← source.readRawValue (min limits.maxHeaderValueChars 65536) limits.maxNesting
    "Change log property name" input
  match ← parseRawJson engine raw "Invalid change log property name" with
  | .string name => .ok (name, input)
  | _ => .error (invalidJson "Change log property name must be a string")

/-- The raw text of one entry, parsed, checked and normalised. -/
def readEntry (index : Nat) (accumulator : ScanAccumulator) (input : S) :
    Except CodecError ((NormalizedEntry × ScanAccumulator) × S) := do
  let (raw, input) ← source.readRawValue limits.maxEntryChars limits.maxNesting (entryName index) input
  let value ← parseRawJson engine raw ("Invalid change log entry " ++ toString index)
  validateChangeLogJsonValue limits (entryName index) 0 value
  let entry ← normalizeChangeLogEntry engine limits value index
  let accumulator ← accumulator.accept limits entry index
  .ok ((entry, accumulator), input)

/-- What follows a part of a container: its end, or a comma and another part. -/
def readDelimiter (close : CodeUnit) (container expected trailing : String) (input : S) :
    Except CodecError (Bool × S) := do
  let (_, input) ← source.skipWhitespace input
  let (delimiter, input) ← source.take input
  if delimiter = some close then .ok (false, input)
  else if delimiter ≠ some comma then
    .error (invalidJson (container ++ ": expected comma or closing " ++ expected ++ ", found " ++
      found delimiter))
  else
    let (_, input) ← source.skipWhitespace input
    let (next, input) ← source.peek input
    if next = some close then .error (invalidJson trailing) else .ok (true, input)

/-- The entries from an index on, up to the closing bracket. -/
def scanEntries : Nat → Nat → ScanAccumulator → S →
    Except CodecError ((List NormalizedEntry × ScanAccumulator) × S)
  | 0, _, _, _ => .error tooManyRounds
  | fuel + 1, index, accumulator, input => do
    let ((entry, accumulator), input) ← source.readEntry engine limits index accumulator input
    let (more, input) ← source.readDelimiter closeBracket "Change log changes" "bracket"
      "Change log changes must not contain a trailing comma" input
    if more then
      let ((later, accumulator), input) ← scanEntries fuel (index + 1) accumulator input
      .ok ((entry :: later, accumulator), input)
    else .ok (([entry], accumulator), input)

def scanChanges (fuel : Nat) (accumulator : ScanAccumulator) (input : S) :
    Except CodecError ((List NormalizedEntry × ScanAccumulator) × S) := do
  let (_, input) ← source.expect openBracket "Change log changes" input
  let (_, input) ← source.skipWhitespace input
  let (next, input) ← source.peek input
  if next = some closeBracket then
    let (_, input) ← source.take input
    .ok (([], accumulator), input)
  else source.scanEntries engine limits fuel 0 accumulator input

/-- The value of a property other than the changes. -/
def readHeaderValue (property : Text) (input : S) : Except CodecError (Value × S) := do
  let (raw, input) ← source.readRawValue limits.maxHeaderValueChars limits.maxNesting
    ("Change log " ++ display property) input
  let value ← parseRawJson engine raw ("Invalid change log " ++ display property)
  validateChangeLogJsonValue limits ("Change log " ++ display property) 0 value
  .ok (value, input)

def scanProperty (fuel : Nat) (scanned : Scanned) (input : S) : Except CodecError (Scanned × S) := do
  let (property, input) ← source.readPropertyName engine limits input
  if property ∈ scanned.seenProperties then
    .error ⟨"CHANGE_LOG_DUPLICATE_PROPERTY",
      "Change log property " ++ display (quoteText property) ++ " is duplicated"⟩
  else
    let scanned := { scanned with seenProperties := property :: scanned.seenProperties }
    let (_, input) ← source.expect colon
      ("Change log property " ++ display (quoteText property)) input
    if property = ascii "changes" then
      let ((entries, accumulator), input) ← source.scanChanges engine limits fuel
        scanned.accumulator input
      .ok ({ scanned with sawChanges := true, entries, accumulator }, input)
    else
      let (value, input) ← source.readHeaderValue engine limits property input
      .ok ({ scanned with document := scanned.document.assign property value }, input)

def scanProperties : Nat → Scanned → S → Except CodecError (Scanned × S)
  | 0, _, _ => .error tooManyRounds
  | fuel + 1, scanned, input => do
    let (scanned, input) ← source.scanProperty engine limits fuel scanned input
    let (more, input) ← source.readDelimiter closeBrace "Change log document" "brace"
      "Change log document must not contain a trailing comma" input
    if more then scanProperties fuel scanned input else .ok (scanned, input)

def scanObject (fuel : Nat) (input : S) : Except CodecError (Scanned × S) := do
  let (_, input) ← source.expect openBrace "Change log document" input
  let (_, input) ← source.skipWhitespace input
  let (next, input) ← source.peek input
  if next = some closeBrace then
    let (_, input) ← source.take input
    .ok (.initial, input)
  else source.scanProperties engine limits fuel .initial input

def scanDocument (fuel : Nat) (input : S) : Except CodecError (Scanned × S) := do
  let (scanned, input) ← source.scanObject engine limits fuel input
  if scanned.sawChanges = false then
    .error ⟨"CHANGE_LOG_INVALID_DOCUMENT", "Change log changes must be an array"⟩
  else
    let (_, input) ← source.skipWhitespace input
    let (next, input) ← source.peek input
    if next.isSome then .error ⟨"CHANGE_LOG_TRAILING_DATA", "Change log contains trailing data"⟩
    else .ok (scanned, input)

/-- The entries and the result of a scan. -/
def scan (fuel : Nat) (input : S) : Except CodecError (List NormalizedEntry × ScanResult) := do
  let limits ← resolveChangeLogCodecLimits limits
  let (scanned, input) ← source.scanDocument engine limits fuel input
  let result ← scanned.accumulator.finish engine limits scanned.document (source.diagnostics input)
  .ok (scanned.entries, result)

end Source

def Chunk.size : Chunk → Nat
  | .bytes data => data.length
  | .text units => units.length

/-- The events of a scan that completes: its entries, then its result. -/
def scanChangeLogJson {σ : Type} (decoder : Utf8.Decoder σ) (engine : Engine) (limits : CodecLimits)
    (chunks : List Chunk) : Except CodecError (List NormalizedEntry × ScanResult) :=
  (Cursor.input decoder).scan engine limits ((chunks.map Chunk.size).sum + 1)
    (Cursor.start decoder chunks)

end OmegaEdit.ChangeLog
