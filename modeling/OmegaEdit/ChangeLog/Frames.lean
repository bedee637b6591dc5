import OmegaEdit.Library.Decimal
import OmegaEdit.Library.Transition
import OmegaEdit.Change

/-! The frames of a change-log export and the checks the client makes on each of
them alone. Integers travel as decimal texts. -/
namespace OmegaEdit.ChangeLog
open Utf16

/-- `ChangeLogCodecError`. -/
structure CodecError where
  code : String
  message : String
deriving DecidableEq, Repr

structure Fingerprint where
  byteLengthDecimal : Text
  digestPluginId : Text
  digestAlgorithm : Text
  digestValue : Text
deriving DecidableEq, Repr

structure StreamHeader where
  formatVersion : Nat
  resolvedFirstSerialDecimal : Text
  resolvedLastSerialDecimal : Text
  sourceChangeCountDecimal : Text
  optimized : Bool
  before : Option Fingerprint
  after : Option Fingerprint
deriving DecidableEq, Repr

structure TransformMetadata where
  transformId : Text
  optionsJson : Text
  replacementLengthDecimal : Text
  computedFileSizeBeforeDecimal : Text
  computedFileSizeAfterDecimal : Text
deriving DecidableEq, Repr

namespace EntryKind

-- An enumeration on the wire is open: any number may arrive.
def delete : Int := 1
def insert : Int := 2
def overwrite : Int := 3
def replace : Int := 4
def transform : Int := 5

end EntryKind

structure EntryHeader where
  entryIndexDecimal : Text
  kind : Int
  offsetDecimal : Text
  lengthDecimal : Text
  payloadLengthDecimal : Text
  transform : Option TransformMetadata
deriving DecidableEq, Repr

structure PayloadChunk where
  entryIndexDecimal : Text
  chunkOffsetDecimal : Text
  data : List Byte
  finalChunk : Bool
deriving DecidableEq, Repr

structure StreamComplete where
  emittedChangeCountDecimal : Text
  payloadByteCountDecimal : Text
deriving DecidableEq, Repr

/-- `ExportChangeLogResponse`: one of the four frames, or none of them set. -/
inductive Frame where
  | header (header : StreamHeader)
  | entry (entry : EntryHeader)
  | payload (payload : PayloadChunk)
  | complete (complete : StreamComplete)
  | empty
deriving DecidableEq, Repr

def maxInt64 : Nat := 9223372036854775807

def maxPayloadChunk : Nat := 262144
def digestPluginIdMaxLength : Nat := 4096
def digestAlgorithmMaxLength : Nat := 128
def digestValueMaxLength : Nat := 4096

def framing (message : String) : CodecError := ⟨"CHANGE_LOG_RPC_FRAMING", message⟩

/-- `parseChangeLogNonNegativeInt64` on a text. -/
def parseDecimal (value : Text) (name : String) : Except CodecError Nat :=
  match Decimal.parse value with
  | none => .error ⟨"CHANGE_LOG_INVALID_INT64", name ++ " must be a non-negative int64"⟩
  | some parsed =>
    if parsed > maxInt64 then
      .error ⟨"CHANGE_LOG_INVALID_INT64", name ++ " must be in the non-negative int64 range"⟩
    else .ok parsed

def isPluginIdUnit (unit : CodeUnit) : Bool :=
  (65 ≤ unit && unit ≤ 90) || (97 ≤ unit && unit ≤ 122) || (48 ≤ unit && unit ≤ 57) ||
    unit == 46 || unit == 95 || unit == 45

def isAlgorithmUnit (unit : CodeUnit) : Bool :=
  (97 ≤ unit && unit ≤ 122) || (48 ≤ unit && unit ≤ 57) || unit == 45

def isHexUnit (unit : CodeUnit) : Bool :=
  (48 ≤ unit && unit ≤ 57) || (97 ≤ unit && unit ≤ 102)

/-- A non-empty text of the given units, no longer than the limit. -/
def isSafeText (allowed : CodeUnit → Bool) (limit : Nat) (text : Text) : Bool :=
  !text.isEmpty && text.all allowed && decide (text.length ≤ limit)

def validateFingerprint (fingerprint : Option Fingerprint) (name : String) :
    Except CodecError Unit := do
  match fingerprint with
  | none => .error (framing (name ++ " fingerprint is required"))
  | some fingerprint =>
    let _ ← parseDecimal fingerprint.byteLengthDecimal (name ++ ".byteLengthDecimal")
    if !isSafeText isPluginIdUnit digestPluginIdMaxLength fingerprint.digestPluginId then
      .error (framing (name ++ " digest plugin id is invalid"))
    else if !isSafeText isAlgorithmUnit digestAlgorithmMaxLength fingerprint.digestAlgorithm then
      .error (framing (name ++ " digest algorithm is invalid"))
    else if !isSafeText isHexUnit digestValueMaxLength fingerprint.digestValue then
      .error (framing (name ++ " digest must be lowercase hexadecimal"))
    else .ok ()

/-- The checks on the metadata of a transform entry. -/
def validateTransform (transform : TransformMetadata) : Except CodecError Unit := do
  if utf8Length transform.transformId > 4096 then
    .error ⟨"CHANGE_LOG_RPC_LIMIT", "transform id exceeds 4096 UTF-8 bytes"⟩
  else if utf8Length transform.optionsJson > 1048576 then
    .error ⟨"CHANGE_LOG_RPC_LIMIT", "transform options exceed 1 MiB"⟩
  else
    let _ ← parseDecimal transform.replacementLengthDecimal "transform.replacementLengthDecimal"
    let _ ← parseDecimal transform.computedFileSizeBeforeDecimal
      "transform.computedFileSizeBeforeDecimal"
    let _ ← parseDecimal transform.computedFileSizeAfterDecimal
      "transform.computedFileSizeAfterDecimal"
    .ok ()

/-- Metadata belongs to transform entries, and those carry no payload. -/
def validateMetadata (entry : EntryHeader) (payloadLength : Nat) : Except CodecError Unit :=
  if entry.kind = EntryKind.transform then
    match entry.transform with
    | none => .error (framing "TRANSFORM requires metadata and no payload chunks")
    | some transform =>
      if payloadLength ≠ 0 then
        .error (framing "TRANSFORM requires metadata and no payload chunks")
      else validateTransform transform
  else if entry.transform.isSome then
    .error (framing "non-transform entry has transform metadata")
  else .ok ()

/-- `validateEntry`: the declared payload length of an entry that is in order. -/
def validateEntry (entry : EntryHeader) (expectedIndex : Nat) : Except CodecError Nat := do
  let index ← parseDecimal entry.entryIndexDecimal "entry.entryIndexDecimal"
  if index ≠ expectedIndex then
    .error (framing ("expected entry index " ++ toString expectedIndex ++ ", received " ++
      toString index))
  else
    let _ ← parseDecimal entry.offsetDecimal "entry.offsetDecimal"
    let _ ← parseDecimal entry.lengthDecimal "entry.lengthDecimal"
    let payloadLength ← parseDecimal entry.payloadLengthDecimal "entry.payloadLengthDecimal"
    if entry.kind < EntryKind.delete ∨ entry.kind > EntryKind.transform then
      .error (framing "entry kind is invalid")
    else
      validateMetadata entry payloadLength
      .ok payloadLength

/-- The checks on the fields of a header frame. -/
def validateHeader (header : StreamHeader) : Except CodecError Unit := do
  if header.formatVersion ≠ 3 then
    .error (framing "unsupported change-log stream version")
  else
    let _ ← parseDecimal header.resolvedFirstSerialDecimal "header.resolvedFirstSerialDecimal"
    let _ ← parseDecimal header.resolvedLastSerialDecimal "header.resolvedLastSerialDecimal"
    let _ ← parseDecimal header.sourceChangeCountDecimal "header.sourceChangeCountDecimal"
    validateFingerprint header.before "before"
    validateFingerprint header.after "after"

/-- The text is the canonical decimal of the value, within the signed range. -/
structure Denotes (text : Text) (value : Nat) : Prop where
  text_eq : text = Decimal.render value
  bounded : value ≤ maxInt64

/-- The text is a decimal in the signed range. -/
def IsInt64 (text : Text) : Prop := ∃ value, Denotes text value

lemma parseDecimal_eq_ok {value : Text} {name : String} {parsed : Nat} :
    parseDecimal value name = .ok parsed ↔ Denotes value parsed := by
  constructor
  · intro accepted
    unfold parseDecimal at accepted
    split at accepted
    · cases accepted
    · rename_i read
      split at accepted
      · cases accepted
      · obtain rfl := Except.ok.inj accepted
        exact ⟨(Decimal.render_of_parse read).symm, by omega⟩
  · rintro ⟨rfl, bounded⟩
    unfold parseDecimal
    rw [Decimal.parse_render]
    exact if_neg (by omega)

lemma exists_parseDecimal {value : Text} {name : String} :
    (∃ parsed, parseDecimal value name = .ok parsed) ↔ IsInt64 value := by
  simp only [parseDecimal_eq_ok, IsInt64]

/-- A fingerprint whose every field has the accepted form. -/
structure Fingerprint.Valid (fingerprint : Fingerprint) : Prop where
  byteLength : IsInt64 fingerprint.byteLengthDecimal
  pluginId : isSafeText isPluginIdUnit digestPluginIdMaxLength fingerprint.digestPluginId = true
  algorithm : isSafeText isAlgorithmUnit digestAlgorithmMaxLength fingerprint.digestAlgorithm = true
  value : isSafeText isHexUnit digestValueMaxLength fingerprint.digestValue = true

structure StreamHeader.Valid (header : StreamHeader) : Prop where
  version : header.formatVersion = 3
  first : IsInt64 header.resolvedFirstSerialDecimal
  last : IsInt64 header.resolvedLastSerialDecimal
  count : IsInt64 header.sourceChangeCountDecimal
  before : ∃ fingerprint, header.before = some fingerprint ∧ fingerprint.Valid
  after : ∃ fingerprint, header.after = some fingerprint ∧ fingerprint.Valid

structure TransformMetadata.Valid (transform : TransformMetadata) : Prop where
  id : utf8Length transform.transformId ≤ 4096
  options : utf8Length transform.optionsJson ≤ 1048576
  replacement : IsInt64 transform.replacementLengthDecimal
  before : IsInt64 transform.computedFileSizeBeforeDecimal
  after : IsInt64 transform.computedFileSizeAfterDecimal

/-- The metadata an entry of this kind and payload length has to have. -/
def EntryHeader.Described (entry : EntryHeader) (declared : Nat) : Prop :=
  if entry.kind = EntryKind.transform then
    declared = 0 ∧ ∃ transform, entry.transform = some transform ∧ transform.Valid
  else entry.transform = none

/-- The entry with this index, declaring this many payload bytes. -/
structure EntryHeader.Valid (entry : EntryHeader) (index declared : Nat) : Prop where
  entryIndex : Denotes entry.entryIndexDecimal index
  offset : IsInt64 entry.offsetDecimal
  length : IsInt64 entry.lengthDecimal
  payloadLength : Denotes entry.payloadLengthDecimal declared
  known : EntryKind.delete ≤ entry.kind ∧ entry.kind ≤ EntryKind.transform
  described : entry.Described declared

section Accepted
variable {ε α β : Type}

lemma check_eq_ok {first : Except ε α} {second : Except ε β} {result : β} :
    (first >>= fun _ => second) = .ok result ↔ (∃ a, first = .ok a) ∧ second = .ok result := by
  rw [Transition.bind_eq_ok]
  constructor
  · rintro ⟨a, done, rest⟩
    exact ⟨⟨a, done⟩, rest⟩
  · rintro ⟨⟨a, done⟩, rest⟩
    exact ⟨a, done, rest⟩

lemma guard_eq_ok {bad : Prop} [Decidable bad] {error : ε} {rest : Except ε α} {result : α} :
    (if bad then .error error else rest) = .ok result ↔ ¬ bad ∧ rest = .ok result := by
  by_cases isBad : bad <;> simp [isBad]

end Accepted

lemma validateFingerprint_eq_ok {fingerprint : Option Fingerprint} {name : String} :
    validateFingerprint fingerprint name = .ok () ↔
      ∃ found, fingerprint = some found ∧ found.Valid := by
  cases fingerprint with
  | none => simp [validateFingerprint]
  | some fingerprint =>
    simp only [validateFingerprint, check_eq_ok, exists_parseDecimal, guard_eq_ok,
      Bool.not_eq_true', Bool.not_eq_false, and_true, Option.some.injEq, exists_eq_left']
    constructor
    · rintro ⟨byteLength, pluginId, algorithm, value⟩
      exact ⟨byteLength, pluginId, algorithm, value⟩
    · rintro ⟨byteLength, pluginId, algorithm, value⟩
      exact ⟨byteLength, pluginId, algorithm, value⟩

lemma validateTransform_eq_ok {transform : TransformMetadata} :
    validateTransform transform = .ok () ↔ transform.Valid := by
  simp only [validateTransform, check_eq_ok, exists_parseDecimal, guard_eq_ok, and_true, not_lt,
    gt_iff_lt]
  constructor
  · rintro ⟨id, options, replacement, before, after⟩
    exact ⟨id, options, replacement, before, after⟩
  · rintro ⟨id, options, replacement, before, after⟩
    exact ⟨id, options, replacement, before, after⟩

lemma validateHeader_eq_ok {header : StreamHeader} :
    validateHeader header = .ok () ↔ header.Valid := by
  simp only [validateHeader, check_eq_ok, exists_parseDecimal, guard_eq_ok, not_not]
  have only : ∀ {name fingerprint}, (∃ done : PUnit, validateFingerprint fingerprint name = .ok done) ↔
      ∃ found, fingerprint = some found ∧ found.Valid := by
    intro name fingerprint
    rw [← @validateFingerprint_eq_ok fingerprint name]
    exact ⟨fun ⟨(), done⟩ => done, fun done => ⟨(), done⟩⟩
  rw [only, validateFingerprint_eq_ok]
  constructor
  · rintro ⟨version, first, last, count, before, after⟩
    exact ⟨version, first, last, count, before, after⟩
  · rintro ⟨version, first, last, count, before, after⟩
    exact ⟨version, first, last, count, before, after⟩

lemma validateMetadata_eq_ok {entry : EntryHeader} {payloadLength : Nat} :
    validateMetadata entry payloadLength = .ok () ↔ entry.Described payloadLength := by
  unfold validateMetadata EntryHeader.Described
  split
  · cases entry.transform with
    | none => simp
    | some transform =>
      simp only [guard_eq_ok, not_not, validateTransform_eq_ok, Option.some.injEq, exists_eq_left']
  · cases entry.transform with
    | none | some transform => simp

/-- An entry passes with exactly the payload length it declares. -/
lemma validateEntry_eq_ok {entry : EntryHeader} {index declared : Nat} :
    validateEntry entry index = .ok declared ↔ entry.Valid index declared := by
  simp only [validateEntry, Transition.bind_eq_ok, parseDecimal_eq_ok, guard_eq_ok, not_not,
    not_or, not_lt, gt_iff_lt, Except.ok.injEq]
  constructor
  · rintro ⟨_, entryIndex, rfl, offset, isOffset, length, isLength, _, payloadLength, known, ⟨⟩,
      described, rfl⟩
    exact ⟨entryIndex, ⟨offset, isOffset⟩, ⟨length, isLength⟩, payloadLength, known,
      validateMetadata_eq_ok.mp described⟩
  · rintro ⟨entryIndex, ⟨offset, isOffset⟩, ⟨length, isLength⟩, payloadLength, known, described⟩
    exact ⟨index, entryIndex, rfl, offset, isOffset, length, isLength, declared, payloadLength, known,
      ⟨⟩, validateMetadata_eq_ok.mpr described, rfl⟩

end OmegaEdit.ChangeLog
