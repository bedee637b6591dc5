import Mathlib.Data.List.Sort
import OmegaEdit.Library.JsonText
import OmegaEdit.Library.Utf8
import OmegaEdit.ChangeLog.Frames

/-! The change-log codec: the checks and normal forms of headers, fingerprints and
entries, the order of serials and groups, and a document that is in memory as a whole.
Cancellation is not modelled. -/
namespace OmegaEdit.ChangeLog
open Utf16 Json

def maxSafeInteger : Nat := 9007199254740991

/-- What the language makes of numbers, and the message of a syntax error. -/
structure Engine where
  /-- The integer that `Number.isSafeInteger` accepts. -/
  safeInteger : Text → Option Int
  printNumber : Text → Text
  syntaxError : Text → String
  safeInteger_render : ∀ value : Nat, value ≤ maxSafeInteger →
    safeInteger (Decimal.render value) = some (value : Int)

/-- An engine that reads canonical decimals only. -/
def Engine.canonical : Engine where
  safeInteger lexeme :=
    (Decimal.parse lexeme).bind fun value => if value ≤ maxSafeInteger then some (value : Int) else none
  printNumber lexeme := lexeme
  syntaxError _ := "Unexpected token"
  safeInteger_render value small := by
    rw [Decimal.parse_render, Option.bind_some, if_pos small]

structure CodecLimits where
  maxNesting : Nat
  maxEntryCount : Nat
  maxEntryChars : Nat
  maxHeaderValueChars : Nat
  maxStringChars : Nat
  maxGroupIdChars : Nat
  maxGroupCount : Nat
  maxTransformCount : Nat
  maxTransformIdBytes : Nat
  maxTransformOptionsBytes : Nat
  maxRequiredPluginCount : Nat
  maxUnavailableSerialCount : Nat
deriving DecidableEq, Repr

def defaultCodecLimits : CodecLimits where
  maxNesting := 256
  maxEntryCount := 1000000
  maxEntryChars := 134221824
  maxHeaderValueChars := 16777216
  maxStringChars := 134217728
  maxGroupIdChars := 256
  maxGroupCount := 65536
  maxTransformCount := 65536
  maxTransformIdBytes := 4096
  maxTransformOptionsBytes := 1048576
  maxRequiredPluginCount := 4096
  maxUnavailableSerialCount := 65536

def CodecLimits.named (limits : CodecLimits) : List (String × Nat) :=
  [("maxNesting", limits.maxNesting), ("maxEntryCount", limits.maxEntryCount),
    ("maxEntryChars", limits.maxEntryChars), ("maxHeaderValueChars", limits.maxHeaderValueChars),
    ("maxStringChars", limits.maxStringChars), ("maxGroupIdChars", limits.maxGroupIdChars),
    ("maxGroupCount", limits.maxGroupCount), ("maxTransformCount", limits.maxTransformCount),
    ("maxTransformIdBytes", limits.maxTransformIdBytes),
    ("maxTransformOptionsBytes", limits.maxTransformOptionsBytes),
    ("maxRequiredPluginCount", limits.maxRequiredPluginCount),
    ("maxUnavailableSerialCount", limits.maxUnavailableSerialCount)]

/-- The defaults with the overrides, as far as they are acceptable. -/
def resolveChangeLogCodecLimits (limits : CodecLimits) : Except CodecError CodecLimits :=
  match limits.named.find? (fun (_, value) => value == 0 || decide (value > maxSafeInteger)) with
  | some (name, _) =>
    .error ⟨"CHANGE_LOG_INVALID_LIMIT", name ++ " must be a positive safe integer"⟩
  | none => .ok limits

/-- The value of a property that a caller passes. -/
inductive Field where
  | undefined
  | bigint (value : Int)
  | json (value : Value)

def getField (fields : List (Text × Field)) (name : String) : Field :=
  (fields.lookup (ascii name)).getD .undefined

def fieldsOf (members : List (Text × Value)) : List (Text × Field) :=
  members.map fun (name, value) => (name, .json value)

/-- `isChangeLogRecord`: the members of an object. -/
def Field.record : Field → Option (List (Text × Field))
  | .json (.object members) => some (fieldsOf members)
  | _ => none

def inInt64 (parsed : Int) (name : String) : Except CodecError Nat :=
  if parsed < 0 ∨ parsed > maxInt64 then
    .error ⟨"CHANGE_LOG_INVALID_INT64", name ++ " must be in the non-negative int64 range"⟩
  else .ok parsed.toNat

section Values
variable (engine : Engine)

def parseChangeLogNonNegativeInt64 (value : Field) (name : String) : Except CodecError Nat :=
  match value with
  | .bigint parsed => inInt64 parsed name
  | .json (.number lexeme) =>
    match engine.safeInteger lexeme with
    | none =>
      .error ⟨"CHANGE_LOG_INVALID_INT64",
        name ++ " must be a non-negative safe integer or decimal int64 string"⟩
    | some parsed => inInt64 parsed name
  | .json (.string text) => parseDecimal text name
  | _ => .error ⟨"CHANGE_LOG_INVALID_INT64", name ++ " must be a non-negative int64"⟩

def parseChangeLogPositiveInt64 (value : Field) (name : String) : Except CodecError Nat := do
  let parsed ← parseChangeLogNonNegativeInt64 engine value name
  if parsed = 0 then .error ⟨"CHANGE_LOG_INVALID_INT64", name ++ " must be a positive int64"⟩
  else .ok parsed

end Values

def assertValidUnicodeString (name : String) : Text → Except CodecError Unit
  | [] => .ok ()
  | [unit] =>
    if isHigh unit then
      .error ⟨"CHANGE_LOG_INVALID_UNICODE", name ++ " contains an unpaired high surrogate"⟩
    else if isLow unit then
      .error ⟨"CHANGE_LOG_INVALID_UNICODE", name ++ " contains an unpaired low surrogate"⟩
    else .ok ()
  | unit :: next :: rest =>
    if isHigh unit then
      if isLow next then assertValidUnicodeString name rest
      else .error ⟨"CHANGE_LOG_INVALID_UNICODE", name ++ " contains an unpaired high surrogate"⟩
    else if isLow unit then
      .error ⟨"CHANGE_LOG_INVALID_UNICODE", name ++ " contains an unpaired low surrogate"⟩
    else assertValidUnicodeString name (next :: rest)

def nestingLimit (limits : CodecLimits) (name : String) : CodecError :=
  ⟨"CHANGE_LOG_NESTING_LIMIT",
    "Change log JSON nesting exceeds " ++ toString limits.maxNesting ++ " levels (" ++ name ++ ")"⟩

section Validate
variable (limits : CodecLimits)

mutual

def validateChangeLogJsonValue (name : String) (depth : Nat) : Value → Except CodecError Unit
  | .string text =>
    if depth > limits.maxNesting then .error (nestingLimit limits name)
    else if text.length > limits.maxStringChars then
      .error ⟨"CHANGE_LOG_STRING_LIMIT",
        name ++ " string exceeds " ++ toString limits.maxStringChars ++ " characters"⟩
    else assertValidUnicodeString name text
  | .array elements =>
    if depth > limits.maxNesting then .error (nestingLimit limits name)
    else validateElements name depth 0 elements
  | .object members =>
    if depth > limits.maxNesting then .error (nestingLimit limits name)
    else validateMembers name depth members
  | _ => if depth > limits.maxNesting then .error (nestingLimit limits name) else .ok ()

def validateElements (name : String) (depth index : Nat) : List Value → Except CodecError Unit
  | [] => .ok ()
  | value :: rest => do
    validateChangeLogJsonValue (name ++ "[" ++ toString index ++ "]") (depth + 1) value
    validateElements name depth (index + 1) rest

def validateMembers (name : String) (depth : Nat) : List (Text × Value) → Except CodecError Unit
  | [] => .ok ()
  | (key, value) :: rest => do
    assertValidUnicodeString (name ++ " property") key
    validateChangeLogJsonValue (name ++ "." ++ display key) (depth + 1) value
    validateMembers name depth rest

end

end Validate

/-- `/[0-9a-f]/i`. -/
def isAnyHexUnit (unit : CodeUnit) : Bool := isHexUnit unit || (65 ≤ unit && unit ≤ 70)

def normalizeHex (value : Field) (name : String) : Except CodecError Text :=
  let refused : Except CodecError Text :=
    .error ⟨"CHANGE_LOG_INVALID_HEX", name ++ " must be an even-length hexadecimal string"⟩
  match value with
  | .json (.string text) =>
    if text.length % 2 ≠ 0 ∨ text.all isAnyHexUnit = false then refused else .ok (text.map lower)
  | _ => refused

def hexCodeUnitToNibble (unit : CodeUnit) : Nat :=
  if unit ≤ 57 then unit.toNat - 48 else (unit &&& 0xdf).toNat - 55

def hexBytes : Text → List Byte
  | first :: second :: rest =>
    UInt8.ofNat (hexCodeUnitToNibble first * 16 + hexCodeUnitToNibble second) :: hexBytes rest
  | _ => []

def decodeHexUtf8 (value : Text) (name : String) : Except CodecError Text :=
  match Utf8.decode (hexBytes value) with
  | some text => .ok text
  | none => .error ⟨"CHANGE_LOG_INVALID_UNICODE", name ++ " must contain valid UTF-8"⟩

structure TransformDescriptor where
  transformId : Text
  optionsJson : Option Text
deriving DecidableEq, Repr

inductive Kind where
  | insert
  | delete
  | overwrite
  | replace
  | transform
deriving DecidableEq, Repr

def Kind.text : Kind → String
  | .insert => "INSERT"
  | .delete => "DELETE"
  | .overwrite => "OVERWRITE"
  | .replace => "REPLACE"
  | .transform => "TRANSFORM"

def Kind.ofField : Field → Option Kind
  | .json (.string text) =>
    [Kind.insert, .delete, .overwrite, .replace, .transform].find? (fun kind => ascii kind.text = text)
  | _ => none

structure NormalizedEntry where
  kind : Kind
  offset : Text
  length : Text
  data : Text
  serial : Option Text
  groupId : Option Text
  transformDescriptor : Option TransformDescriptor
deriving DecidableEq, Repr

section Entries
variable (engine : Engine) (limits : CodecLimits)

def transformArgs (descriptor : List (Text × Field)) (name : String) :
    Except CodecError (List (Text × Value)) :=
  match getField descriptor "args" with
  | .undefined => .ok []
  | .json (.object members) => .ok members
  | _ => .error ⟨"CHANGE_LOG_INVALID_TRANSFORM", name ++ " args must be a JSON object"⟩

def parseTransformDescriptor (data : Text) (name : String) : Except CodecError TransformDescriptor := do
  if data.isEmpty then .error ⟨"CHANGE_LOG_INVALID_TRANSFORM", name ++ " requires data"⟩
  else
    let text ← decodeHexUtf8 data name
    match parse text with
    | none => .error ⟨"CHANGE_LOG_INVALID_TRANSFORM", name ++ " must contain a JSON object"⟩
    | some descriptor =>
      validateChangeLogJsonValue limits name 0 descriptor
      match (Field.json descriptor).record with
      | none => .error ⟨"CHANGE_LOG_INVALID_TRANSFORM", name ++ " must contain a JSON object"⟩
      | some fields =>
        match getField fields "transformId" with
        | .json (.string transformId) =>
          if (trim transformId).isEmpty then
            .error ⟨"CHANGE_LOG_INVALID_TRANSFORM", name ++ " requires transformId"⟩
          else
            let args ← transformArgs fields name
            let optionsJson :=
              if args.isEmpty then none else some (serialize engine.printNumber [] [] (.object args))
            if utf8Length (trim transformId) > limits.maxTransformIdBytes then
              .error ⟨"CHANGE_LOG_TRANSFORM_METADATA_LIMIT",
                name ++ " transformId exceeds " ++ toString limits.maxTransformIdBytes ++ " UTF-8 bytes"⟩
            else if (optionsJson.elim 0 utf8Length) > limits.maxTransformOptionsBytes then
              .error ⟨"CHANGE_LOG_TRANSFORM_METADATA_LIMIT",
                name ++ " options exceed " ++ toString limits.maxTransformOptionsBytes ++ " UTF-8 bytes"⟩
            else .ok ⟨trim transformId, optionsJson⟩
        | _ => .error ⟨"CHANGE_LOG_INVALID_TRANSFORM", name ++ " requires transformId"⟩

/-- The metadata of a transform that older documents carry beside the data. -/
def legacyFields : List String :=
  ["transformId", "optionsJson", "replacementLength", "computedFileSizeBefore",
    "computedFileSizeAfter"]

def entryName (index : Nat) : String := "Change log entry " ++ toString index

def normalizeSerial (value : Field) (index : Nat) : Except CodecError (Option Text) :=
  match value with
  | .undefined => .ok none
  | value => do
    let serial ← parseChangeLogPositiveInt64 engine value (entryName index ++ " serial")
    .ok (some (Decimal.render serial))

def normalizeGroupId (value : Field) (index : Nat) : Except CodecError (Option Text) :=
  let refused : Except CodecError (Option Text) :=
    .error ⟨"CHANGE_LOG_INVALID_ENTRY", entryName index ++ " groupId must be a string"⟩
  match value with
  | .undefined => .ok none
  | .json (.string text) =>
    if (trim text).isEmpty then refused
    else if (trim text).length > limits.maxGroupIdChars then
      .error ⟨"CHANGE_LOG_GROUP_LIMIT",
        entryName index ++ " groupId exceeds " ++ toString limits.maxGroupIdChars ++ " characters"⟩
    else .ok (some (trim text))
  | _ => refused

def normalizeTransform (kind : Kind) (fields : List (Text × Field)) (data : Text) (index : Nat) :
    Except CodecError (Option TransformDescriptor) :=
  if kind ≠ .transform then .ok none
  else if legacyFields.any (fun name => fields.any fun (field, _) => field == ascii name) then
    .error ⟨"CHANGE_LOG_INVALID_TRANSFORM",
      entryName index ++ " TRANSFORM metadata must be carried in data"⟩
  else do
    let descriptor ←
      parseTransformDescriptor engine limits data (entryName index ++ " TRANSFORM data")
    .ok (some descriptor)

/-- The data an edit entry has to carry. -/
def checkEntryData (kind : Kind) (length : Nat) (data : Text) (index : Nat) : Except CodecError Unit :=
  if (kind = .insert ∨ kind = .delete ∨ kind = .overwrite) ∧ data.length / 2 = 0 then
    .error ⟨"CHANGE_LOG_INVALID_ENTRY", entryName index ++ " " ++ kind.text ++ " requires data"⟩
  else if kind = .delete ∧ data.length / 2 ≠ length then
    .error ⟨"CHANGE_LOG_INVALID_ENTRY", entryName index ++ " DELETE data length mismatch"⟩
  else .ok ()

/-- `normalizeChangeLogEntry` of a record whose values have been checked. -/
def normalizeEntryFields (fields : List (Text × Field)) (index : Nat) :
    Except CodecError NormalizedEntry := do
  match Kind.ofField (getField fields "kind") with
  | none => .error ⟨"CHANGE_LOG_INVALID_ENTRY", entryName index ++ " has an unsupported kind"⟩
  | some kind =>
    let offset ← parseChangeLogNonNegativeInt64 engine (getField fields "offset")
      (entryName index ++ " offset")
    let length ← parseChangeLogNonNegativeInt64 engine (getField fields "length")
      (entryName index ++ " length")
    let data ← normalizeHex (getField fields "data") (entryName index ++ " data")
    checkEntryData kind length data index
    let serial ← normalizeSerial engine (getField fields "serial") index
    let groupId ← normalizeGroupId limits (getField fields "groupId") index
    let transformDescriptor ← normalizeTransform engine limits kind fields data index
    .ok {
      kind, offset := Decimal.render offset, length := Decimal.render length, data, serial, groupId,
      transformDescriptor }

def normalizeChangeLogEntry (value : Value) (index : Nat) : Except CodecError NormalizedEntry := do
  validateChangeLogJsonValue limits (entryName index) 0 value
  match (Field.json value).record with
  | none => .error ⟨"CHANGE_LOG_INVALID_ENTRY", entryName index ++ " must be an object"⟩
  | some fields => normalizeEntryFields engine limits fields index

end Entries

structure NormalizedFingerprint where
  byteLength : Text
  pluginId : Text
  algorithm : Text
  value : Text
deriving DecidableEq, Repr

def defaultDigestPluginId : Text := ascii "omega.example.openssl_digests"

/-- The text of a property that may be missing, null or no string. -/
def trimmedText (value : Field) (default : Text) : Text :=
  match value with
  | .json (.string text) => trim text
  | .undefined => default
  | .json .null => default
  | _ => []

def fingerprintError (message : String) : CodecError := ⟨"CHANGE_LOG_INVALID_FINGERPRINT", message⟩

section Headers
variable (engine : Engine) (limits : CodecLimits)

def normalizeChangeLogFingerprint (value : Field) (key : String) :
    Except CodecError NormalizedFingerprint := do
  match value.record with
  | none => .error (fingerprintError ("Change log " ++ key ++ " fingerprint must be an object"))
  | some fields =>
    let byteLength ← parseChangeLogNonNegativeInt64 engine (getField fields "byteLength")
      ("Change log " ++ key ++ ".byteLength")
    match (getField fields "digest").record with
    | none => .error (fingerprintError ("Change log " ++ key ++ ".digest must be an object"))
    | some digest =>
      let pluginId := trimmedText (getField digest "pluginId") defaultDigestPluginId
      let algorithm := (trimmedText (getField digest "algorithm") []).map lower
      let digestValue := (trimmedText (getField digest "value") []).map lower
      if !isSafeText isPluginIdUnit digestPluginIdMaxLength pluginId then
        .error (fingerprintError ("Change log " ++ key ++ ".digest.pluginId must contain 1-" ++
          toString digestPluginIdMaxLength ++
          " ASCII letters, digits, dots, underscores, or hyphens"))
      else if !isSafeText isAlgorithmUnit digestAlgorithmMaxLength algorithm then
        .error (fingerprintError ("Change log " ++ key ++ ".digest.algorithm must normalize to 1-" ++
          toString digestAlgorithmMaxLength ++ " lowercase ASCII letters, digits, or hyphens"))
      else if !isSafeText isHexUnit digestValueMaxLength digestValue then
        .error (fingerprintError ("Change log " ++ key ++ ".digest.value must normalize to 1-" ++
          toString digestValueMaxLength ++ " lowercase hexadecimal characters"))
      else .ok { byteLength := Decimal.render byteLength, pluginId, algorithm, value := digestValue }

def metadataError (message : String) : CodecError := ⟨"CHANGE_LOG_INVALID_METADATA", message⟩

def unavailableName (index : Nat) : String :=
  "Change log unavailableChangeSerials[" ++ toString index ++ "]"

/-- The serials from an index on, given those that have been seen. -/
def normalizeSerials (sourceChangeCount : Nat) (seen : List Text) (index : Nat) :
    List Value → Except CodecError (List Text)
  | [] => .ok []
  | value :: rest => do
    let parsed ← parseChangeLogPositiveInt64 engine (.json value) (unavailableName index)
    let decimal := Decimal.render parsed
    if parsed > sourceChangeCount then
      .error (metadataError (unavailableName index ++ " exceeds sourceChangeCount"))
    else if decimal ∈ seen then
      .error (metadataError (unavailableName index ++ " duplicates serial " ++ display decimal))
    else
      let later ← normalizeSerials sourceChangeCount (decimal :: seen) (index + 1) rest
      .ok (decimal :: later)

def normalizeUnavailableChangeSerials (value : Field) (sourceChangeCount : Nat) :
    Except CodecError (List Text) :=
  match value with
  | .json (.array serials) =>
    if serials.length > limits.maxUnavailableSerialCount then
      .error ⟨"CHANGE_LOG_UNAVAILABLE_SERIAL_LIMIT",
        "Change log unavailableChangeSerials exceeds " ++
          toString limits.maxUnavailableSerialCount ++ " entries"⟩
    else normalizeSerials engine sourceChangeCount [] 0 serials
  | _ => .error (metadataError "Change log unavailableChangeSerials must be an array")

/-- An object that properties have been assigned to. An object that is assigned to the property
`__proto__` becomes its prototype. -/
structure Document where
  own : List (Text × Value)
  inherited : List (Text × Value)

def Document.assign (document : Document) (property : Text) (value : Value) : Document :=
  if property = ascii "__proto__" then
    match value with
    | .object members => { document with inherited := members }
    | _ => document
  else { document with own := document.own ++ [(property, value)] }

def Document.get (document : Document) (name : String) : Field :=
  match document.own.lookup (ascii name) with
  | some value => .json value
  | none => ((document.inherited.lookup (ascii name)).map Field.json).getD .undefined

structure Header where
  complete : Bool
  before : NormalizedFingerprint
  after : NormalizedFingerprint
  changeCount : Text
  sourceChangeCount : Text
  unavailableChangeCount : Text
  unavailableChangeSerials : List Text
deriving DecidableEq, Repr

def changeLogFormat : Text := ascii "omega-edit.change-log"
def changeLogVersion : Nat := 2

def isFormat : Field → Bool
  | .json (.string text) => decide (text = changeLogFormat)
  | _ => false

def isVersion : Field → Bool
  | .json (.number lexeme) => decide (engine.safeInteger lexeme = some (changeLogVersion : Int))
  | _ => false

def normalizeChangeLogHeader (document : Document) (actualEntryCount : Nat) :
    Except CodecError Header := do
  if !isFormat (document.get "format") then
    .error ⟨"CHANGE_LOG_UNSUPPORTED_FORMAT", "Unsupported change log format"⟩
  else if !isVersion engine (document.get "version") then
    .error ⟨"CHANGE_LOG_UNSUPPORTED_VERSION", "Unsupported change log version"⟩
  else match document.get "complete" with
    | .json (.bool complete) =>
      let changeCount ← parseChangeLogNonNegativeInt64 engine (document.get "changeCount")
        "Change log changeCount"
      let sourceChangeCount ← parseChangeLogNonNegativeInt64 engine
        (document.get "sourceChangeCount") "Change log sourceChangeCount"
      let unavailableChangeCount ← parseChangeLogNonNegativeInt64 engine
        (document.get "unavailableChangeCount") "Change log unavailableChangeCount"
      if changeCount ≠ actualEntryCount then
        .error (metadataError "Change log changeCount must match changes length")
      else if sourceChangeCount < changeCount then
        .error (metadataError "Change log sourceChangeCount must cover changeCount")
      else
        let unavailableChangeSerials ← normalizeUnavailableChangeSerials engine limits
          (document.get "unavailableChangeSerials") sourceChangeCount
        if unavailableChangeCount ≠ unavailableChangeSerials.length then
          .error (metadataError
            "Change log unavailableChangeCount must match unavailableChangeSerials length")
        else if complete ≠ decide (unavailableChangeCount = 0) then
          .error (metadataError "Change log complete must match unavailable change metadata")
        else
          let before ← normalizeChangeLogFingerprint engine (document.get "before") "before"
          let after ← normalizeChangeLogFingerprint engine (document.get "after") "after"
          .ok {
            complete, before, after
            changeCount := Decimal.render changeCount
            sourceChangeCount := Decimal.render sourceChangeCount
            unavailableChangeCount := Decimal.render unavailableChangeCount
            unavailableChangeSerials }
    | _ => .error (metadataError "Change log complete must be a boolean")

end Headers

/-- `ChangeLogEntrySequenceValidator`. -/
structure SequenceValidator where
  serialMode : Option Bool
  activeGroup : Option Text
  closedGroups : List Text
deriving DecidableEq, Repr

namespace SequenceValidator

def initial : SequenceValidator := ⟨none, none, []⟩

def closeActiveGroup (limits : CodecLimits) (validator : SequenceValidator) :
    Except CodecError SequenceValidator :=
  match validator.activeGroup with
  | none => .ok validator
  | some group =>
    if validator.closedGroups.length ≥ limits.maxGroupCount then
      .error ⟨"CHANGE_LOG_GROUP_LIMIT",
        "Change log closed group count exceeds " ++ toString limits.maxGroupCount⟩
    else .ok { validator with closedGroups := validator.closedGroups ++ [group], activeGroup := none }

/-- The serials are on every entry or on none, and count the entries. -/
def acceptSerial (validator : SequenceValidator) (serial : Option Text) (index : Nat) :
    Except CodecError SequenceValidator :=
  if validator.serialMode.any (· != serial.isSome) then
    .error ⟨"CHANGE_LOG_INVALID_SERIALS",
      "Change log serial metadata must be present on every entry"⟩
  else if serial.any (fun serial => Decimal.parse serial ≠ some (index + 1)) then
    .error ⟨"CHANGE_LOG_INVALID_SERIALS",
      "Change log serial metadata must be contiguous; entry " ++ toString index ++ " has serial " ++
        display (serial.getD []) ++ ", expected " ++ toString (index + 1)⟩
  else .ok { validator with serialMode := some serial.isSome }

def accept (limits : CodecLimits) (validator : SequenceValidator) (entry : NormalizedEntry)
    (index : Nat) : Except CodecError SequenceValidator := do
  let validator ← validator.acceptSerial entry.serial index
  match entry.groupId with
  | none => validator.closeActiveGroup limits
  | some groupId =>
    if groupId.isEmpty then validator.closeActiveGroup limits
    else if validator.activeGroup = some groupId then .ok validator
    else if groupId ∈ validator.closedGroups then
      .error ⟨"CHANGE_LOG_INVALID_GROUPS",
        "Change log groupId \"" ++ display groupId ++ "\" is not contiguous at entry " ++
          toString index⟩
    else
      let validator ← validator.closeActiveGroup limits
      .ok { validator with activeGroup := some groupId }

end SequenceValidator

structure PrimitiveCounts where
  total : Nat
  insert : Nat
  delete : Nat
  overwrite : Nat
  replace : Nat
  transform : Nat
deriving DecidableEq, Repr

def PrimitiveCounts.add (counts : PrimitiveCounts) (kind : Kind) : PrimitiveCounts :=
  let counts := { counts with total := counts.total + 1 }
  match kind with
  | .insert => { counts with insert := counts.insert + 1 }
  | .delete => { counts with delete := counts.delete + 1 }
  | .overwrite => { counts with overwrite := counts.overwrite + 1 }
  | .replace => { counts with replace := counts.replace + 1 }
  | .transform => { counts with transform := counts.transform + 1 }

structure TransformSummary where
  index : Nat
  serial : Option Text
  offset : Text
  length : Text
  transformId : Text
  optionsJson : Option Text
deriving DecidableEq, Repr

structure ScanDiagnostics where
  bytesRead : Nat
  maxBufferedChars : Nat
  maxValueChars : Nat
deriving DecidableEq, Repr

structure ScanResult where
  header : Header
  entryCount : Nat
  primitiveCounts : PrimitiveCounts
  transformDescriptors : List TransformSummary
  requiredPlugins : List Text
  diagnostics : ScanDiagnostics
deriving DecidableEq, Repr

/-- `ChangeLogScanAccumulator`. -/
structure ScanAccumulator where
  primitiveCounts : PrimitiveCounts
  transformDescriptors : List TransformSummary
  requiredPluginIds : List Text
  sequence : SequenceValidator

namespace ScanAccumulator

def initial : ScanAccumulator := ⟨⟨0, 0, 0, 0, 0, 0⟩, [], [], .initial⟩

def acceptTransform (limits : CodecLimits) (accumulator : ScanAccumulator) (entry : NormalizedEntry)
    (descriptor : TransformDescriptor) (index : Nat) : Except CodecError ScanAccumulator :=
  if accumulator.transformDescriptors.length ≥ limits.maxTransformCount then
    .error ⟨"CHANGE_LOG_TRANSFORM_LIMIT",
      "Change log transform count exceeds " ++ toString limits.maxTransformCount⟩
  else
    let summary : TransformSummary :=
      { index, serial := entry.serial, offset := entry.offset, length := entry.length,
        transformId := descriptor.transformId, optionsJson := descriptor.optionsJson }
    let required := accumulator.requiredPluginIds.insert descriptor.transformId
    if required.length > limits.maxRequiredPluginCount then
      .error ⟨"CHANGE_LOG_PLUGIN_LIMIT",
        "Change log required plugin count exceeds " ++ toString limits.maxRequiredPluginCount⟩
    else .ok { accumulator with
      transformDescriptors := accumulator.transformDescriptors ++ [summary]
      requiredPluginIds := required }

def accept (limits : CodecLimits) (accumulator : ScanAccumulator) (entry : NormalizedEntry)
    (index : Nat) : Except CodecError ScanAccumulator := do
  if index ≥ limits.maxEntryCount then
    .error ⟨"CHANGE_LOG_ENTRY_LIMIT",
      "Change log entry count exceeds " ++ toString limits.maxEntryCount⟩
  else
    let sequence ← accumulator.sequence.accept limits entry index
    let accumulator := { accumulator with
      sequence, primitiveCounts := accumulator.primitiveCounts.add entry.kind }
    match entry.kind, entry.transformDescriptor with
    | .transform, some descriptor => accumulator.acceptTransform limits entry descriptor index
    | _, _ => .ok accumulator

def finish (engine : Engine) (limits : CodecLimits) (accumulator : ScanAccumulator)
    (document : Document) (diagnostics : ScanDiagnostics) : Except CodecError ScanResult := do
  let header ← normalizeChangeLogHeader engine limits document accumulator.primitiveCounts.total
  .ok {
    header
    entryCount := accumulator.primitiveCounts.total
    primitiveCounts := accumulator.primitiveCounts
    transformDescriptors := accumulator.transformDescriptors
    requiredPlugins := accumulator.requiredPluginIds.insertionSort (fun a b => precedesOrSame a b)
    diagnostics }

end ScanAccumulator

section Document
variable (engine : Engine)

/-- Normalise and accept the entries from an index on. -/
def normalizeEntries (limits : CodecLimits) (accumulator : ScanAccumulator) (index : Nat) :
    List Value → Except CodecError (List NormalizedEntry × ScanAccumulator)
  | [] => .ok ([], accumulator)
  | value :: rest => do
    let entry ← normalizeChangeLogEntry engine limits value index
    let accumulator ← accumulator.accept limits entry index
    let (later, accumulator) ← normalizeEntries limits accumulator (index + 1) rest
    .ok (entry :: later, accumulator)

/-- The entries and the result of a document in memory. -/
def normalizeChangeLogDocument (limits : CodecLimits) (value : Value) :
    Except CodecError (List NormalizedEntry × ScanResult) := do
  let limits ← resolveChangeLogCodecLimits limits
  validateChangeLogJsonValue limits "Change log" 0 value
  let refused : Except CodecError (List NormalizedEntry × ScanResult) :=
    .error ⟨"CHANGE_LOG_INVALID_DOCUMENT",
      "Change log must be a versioned omega-edit.change-log document"⟩
  match value with
  | .object members =>
    match members.lookup (ascii "changes") with
    | some (.array changes) =>
      let (entries, accumulator) ← normalizeEntries engine limits .initial 0 changes
      let result ← accumulator.finish engine limits ⟨members, []⟩ ⟨0, 0, 0⟩
      .ok (entries, result)
    | _ => refused
  | _ => refused

end Document

end OmegaEdit.ChangeLog
