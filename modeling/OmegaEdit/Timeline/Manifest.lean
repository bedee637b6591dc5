import Mathlib.Data.List.Sort
import OmegaEdit.ChangeLog.Frames
import OmegaEdit.Client.EditorHistory

/-! The manifest of a checkpoint timeline: the intervals between checkpoints, each with the
fingerprints of the content at its ends, the cursor, and a marker for the content that was
saved. Each call builds a new manifest from the present one, which is checked before it is
written. The description of the document is left out. -/
namespace OmegaEdit.Timeline
open Utf16 EditorHistory
open ChangeLog (maxInt64 isSafeText isPluginIdUnit isAlgorithmUnit isHexUnit digestPluginIdMaxLength
  digestAlgorithmMaxLength digestValueMaxLength)

structure TimelineStorageError where
  code : String
  message : String
deriving DecidableEq, Repr

/-- A fingerprint as a caller gives it, the byte length as its text. -/
structure FingerprintInput where
  byteLength : Text
  pluginId : Option Text
  algorithm : Text
  value : Text
deriving DecidableEq, Repr

/-- `NormalizedTimelineFingerprint`. -/
@[ext]
structure Fingerprint where
  byteLength : Text
  pluginId : Text
  algorithm : Text
  value : Text
deriving DecidableEq, Repr

def defaultDigestPluginId : Text := ascii "omega.example.openssl_digests"

/-- The text of a number, if it is canonical and in range. -/
def decimal (text : Text) (name : String) : Except TimelineStorageError Text :=
  match Decimal.parse text with
  | none => .error ⟨"TIMELINE_INVALID_METADATA", name ++ " must be a canonical unsigned decimal"⟩
  | some parsed =>
    if parsed > maxInt64 then
      .error ⟨"TIMELINE_INVALID_METADATA", name ++ " exceeds signed int64 range"⟩
    else .ok text

def normalizeFingerprint (input : FingerprintInput) : Except TimelineStorageError Fingerprint := do
  let byteLength ← decimal input.byteLength "fingerprint.byteLength"
  let pluginId := input.pluginId.getD defaultDigestPluginId
  if !isSafeText isPluginIdUnit digestPluginIdMaxLength pluginId ||
      !isSafeText isAlgorithmUnit digestAlgorithmMaxLength input.algorithm ||
      !isSafeText isHexUnit digestValueMaxLength input.value then
    .error ⟨"TIMELINE_INVALID_FINGERPRINT", "Timeline fingerprint digest metadata is invalid"⟩
  else .ok ⟨byteLength, pluginId, input.algorithm, input.value⟩

def fingerprintsEqual (left right : Fingerprint) : Bool :=
  left.byteLength == right.byteLength && left.pluginId == right.pluginId &&
    left.algorithm == right.algorithm && left.value == right.value

lemma fingerprintsEqual_iff {left right : Fingerprint} : fingerprintsEqual left right = true ↔ left = right := by
  simp only [fingerprintsEqual, Bool.and_eq_true, beq_iff_eq, Fingerprint.ext_iff, and_assoc]

def Fingerprint.input (fingerprint : Fingerprint) : FingerprintInput :=
  ⟨fingerprint.byteLength, some fingerprint.pluginId, fingerprint.algorithm, fingerprint.value⟩

inductive BoundaryKind where
  | plain
  | transform
  | tip
deriving DecidableEq, Repr

structure Archive where
  file : Text
  byteLength : Text
  sha256 : Text
  emittedChangeCount : Text
  optimized : Bool
deriving DecidableEq, Repr

/-- An interval has an archive, or the error that kept it from having one. -/
inductive Availability where
  | ready (archive : Archive)
  | unavailable (code message : String)
deriving DecidableEq, Repr

structure Interval where
  checkpoint : Nat
  generation : Nat
  before : Fingerprint
  after : Fingerprint
  sourceChangeCount : Text
  createdAt : Text
  boundaryKind : BoundaryKind
  transformPluginIds : List Text
  history : Option Controller
  state : Availability
deriving DecidableEq, Repr

structure Saved where
  fingerprint : Fingerprint
  checkpoint : Option Nat
  offBranch : Bool
deriving DecidableEq, Repr

/-- `CheckpointTimelineManifestV1`. -/
structure Manifest where
  updatedAt : Text
  original : Fingerprint
  saved : Saved
  cursor : Nat
  tip : Nat
  nextGeneration : Nat
  intervals : List Interval
deriving DecidableEq, Repr

def invalidManifest (message : String) : TimelineStorageError := ⟨"TIMELINE_INVALID_MANIFEST", message⟩

/-- `[...new Set(ids)].sort()`. -/
def sortedUnique (ids : List Text) : List Text := ids.dedup.insertionSort fun a b => precedesOrSame a b

/-- `/^\d{8}\.json$/`. -/
def isIntervalFile (file : Text) : Bool :=
  file.length == 13 && (file.take 8).all Decimal.isDigit && file.drop 8 == ascii ".json"

/-- The name of the archive of a checkpoint. -/
def intervalFile (checkpoint : Nat) : Text :=
  let digits := Decimal.render checkpoint
  List.replicate (8 - digits.length) 48 ++ digits ++ ascii ".json"

section Parse

def checkArchive (entry : Interval) (archive : Archive) : Except TimelineStorageError Unit := do
  if !isIntervalFile archive.file then
    .error (invalidManifest ("Checkpoint " ++ toString entry.checkpoint ++ " has an invalid ready archive"))
  else
    let _ ← decimal archive.byteLength "archive.byteLength"
    let _ ← decimal archive.emittedChangeCount "archive.emittedChangeCount"
    if !(archive.sha256.length == 64 && archive.sha256.all isHexUnit) then
      .error (invalidManifest "Archive SHA-256 is invalid")
    else .ok ()

def checkHistory (history : Option Controller) : Except TimelineStorageError Unit :=
  match history with
  | none => .ok ()
  | some snapshot =>
    match Controller.fromSnapshot snapshot with
    | .ok _ => .ok ()
    | .error _ => .error ⟨"TypeError", "Invalid editor history snapshot"⟩

/-- One interval, given its place and the fingerprint that the one before ends with. -/
def checkInterval (index : Nat) (previous : Fingerprint) (entry : Interval) :
    Except TimelineStorageError Unit := do
  if entry.checkpoint ≠ index + 1 ∨ entry.generation < 1 then
    .error (invalidManifest "Timeline checkpoints are not contiguous")
  else
    let before ← normalizeFingerprint entry.before.input
    let _ ← normalizeFingerprint entry.after.input
    checkHistory entry.history
    if !fingerprintsEqual previous before then
      .error (invalidManifest
        ("Checkpoint " ++ toString entry.checkpoint ++ " breaks the fingerprint chain"))
    else if entry.transformPluginIds ≠ sortedUnique entry.transformPluginIds then
      .error (invalidManifest
        ("Checkpoint " ++ toString entry.checkpoint ++ " has invalid plugin metadata"))
    else
      match entry.state with
      | .ready archive => checkArchive entry archive
      | .unavailable _ _ => .ok ()
      let _ ← decimal entry.sourceChangeCount "sourceChangeCount"
      .ok ()

/-- The intervals from an index on. -/
def checkIntervals (index : Nat) (previous : Fingerprint) : List Interval → Except TimelineStorageError Unit
  | [] => .ok ()
  | entry :: rest => do
    checkInterval index previous entry
    checkIntervals (index + 1) entry.after rest

/-- `parseManifest` of a manifest that has the right types. -/
def parseManifest (manifest : Manifest) : Except TimelineStorageError Unit := do
  if manifest.cursor > manifest.tip ∨ manifest.tip ≠ manifest.intervals.length ∨
      manifest.nextGeneration < 1 then
    .error (invalidManifest "Timeline cursor, tip, or generation is invalid")
  else
    let original ← normalizeFingerprint manifest.original.input
    checkIntervals 0 original manifest.intervals
    let _ ← normalizeFingerprint manifest.saved.fingerprint.input
    .ok ()

end Parse

/-- The options of a capture without the writers of its archive, and the times that it reads for its
entry and for the manifest. -/
structure CaptureOptions where
  checkpoint : Nat
  expectedGeneration : Nat
  sourceChangeCount : Text
  before : FingerprintInput
  after : FingerprintInput
  boundaryKind : BoundaryKind
  transformPluginIds : Option (List Text)
  history : Option Controller
  createdAt : Text
  updatedAt : Text
deriving DecidableEq, Repr

/-- What opening the change log in an archive tells about it. -/
structure ArchiveFile where
  complete : Bool
  unavailableChangeCount : Text
  before : Fingerprint
  after : Fingerprint
  sourceChangeCount : Text
  changeCount : Text
  requiredPlugins : List Text
  byteLength : Text
  sha256 : Text
deriving DecidableEq, Repr

/-- `validateCandidate` of a file that could be opened. -/
def validateCandidate (opened : ArchiveFile) (before after : Fingerprint) (sourceChangeCount : Text) :
    Except TimelineStorageError Unit := do
  let invalid : Except TimelineStorageError Unit := .error ⟨"TIMELINE_INVALID_ARCHIVE",
    "Checkpoint interval failed completeness or fingerprint validation"⟩
  if !opened.complete || opened.unavailableChangeCount != ascii "0" ||
      !fingerprintsEqual opened.before before || !fingerprintsEqual opened.after after then invalid
  else
    let count ← decimal sourceChangeCount "sourceChangeCount"
    if opened.sourceChangeCount ≠ count then invalid else .ok ()

namespace Manifest
variable (manifest : Manifest)

/-- The manifest of a new session. -/
def initial (original : Fingerprint) (updatedAt : Text) : Manifest :=
  ⟨updatedAt, original, ⟨original, some 0, false⟩, 0, 0, 1, []⟩

/-- The manifest with the time at which a call has built it. -/
def touch (updatedAt : Text) : Manifest := { manifest with updatedAt }

/-- The fingerprint at the tip. -/
def tipFingerprint : Fingerprint :=
  (manifest.intervals.getLast?.map Interval.after).getD manifest.original

/-- The checks of a capture, and its normalised fingerprints. -/
def startCapture (maxCheckpoints : Nat) (options : CaptureOptions) :
    Except TimelineStorageError (Fingerprint × Fingerprint) := do
  if options.checkpoint ≠ manifest.tip + 1 ∨ options.checkpoint > maxCheckpoints then
    .error ⟨"TIMELINE_CHECKPOINT_LIMIT",
      "Checkpoint " ++ toString options.checkpoint ++ " is not the next storable boundary"⟩
  else if options.expectedGeneration ≠ manifest.nextGeneration then
    .error ⟨"TIMELINE_STALE_GENERATION",
      "Checkpoint capture belongs to a stale timeline generation"⟩
  else
    let before ← normalizeFingerprint options.before
    let after ← normalizeFingerprint options.after
    if !fingerprintsEqual before manifest.tipFingerprint then
      .error ⟨"TIMELINE_FINGERPRINT_MISMATCH",
        "Interval before fingerprint does not continue the manifest chain"⟩
    else .ok (before, after)

/-- The checks of an unavailable interval, and its normalised fingerprints. -/
def startUnavailable (options : CaptureOptions) :
    Except TimelineStorageError (Fingerprint × Fingerprint) := do
  if options.checkpoint ≠ manifest.tip + 1 ∨ options.expectedGeneration ≠ manifest.nextGeneration then
    .error ⟨"TIMELINE_STALE_GENERATION",
      "Unavailable checkpoint belongs to a stale timeline generation"⟩
  else
    let before ← normalizeFingerprint options.before
    let after ← normalizeFingerprint options.after
    if !fingerprintsEqual before manifest.tipFingerprint then
      .error ⟨"TIMELINE_FINGERPRINT_MISMATCH",
        "Unavailable interval does not continue the manifest chain"⟩
    else .ok (before, after)

/-- The entry of a new interval. -/
def entry (options : CaptureOptions) (before after : Fingerprint) (plugins : List Text)
    (state : Availability) : Except TimelineStorageError Interval := do
  let sourceChangeCount ← decimal options.sourceChangeCount "sourceChangeCount"
  checkHistory options.history
  .ok {
    checkpoint := options.checkpoint
    generation := options.expectedGeneration
    before, after, sourceChangeCount
    createdAt := options.createdAt
    boundaryKind := options.boundaryKind
    transformPluginIds := sortedUnique plugins
    history := options.history.bind fun snapshot => (Controller.fromSnapshot snapshot).toOption
    state }

/-- The entry of an interval whose archive has been written. -/
def readyEntry (options : CaptureOptions) (before after : Fingerprint) (winner : ArchiveFile)
    (optimized : Bool) : Except TimelineStorageError Interval :=
  entry options before after (options.transformPluginIds.getD winner.requiredPlugins) (.ready {
    file := intervalFile options.checkpoint
    byteLength := winner.byteLength
    sha256 := winner.sha256
    emittedChangeCount := winner.changeCount
    optimized })

/-- The entry of an interval without an archive. -/
def unavailableEntry (options : CaptureOptions) (before after : Fingerprint) (code message : String) :
    Except TimelineStorageError Interval :=
  entry options before after (options.transformPluginIds.getD []) (.unavailable code message)

/-- The manifest with a new interval at its tip. -/
def append (interval : Interval) : Manifest :=
  { manifest with
    cursor := interval.checkpoint
    tip := interval.checkpoint
    nextGeneration := manifest.nextGeneration + 1
    intervals := manifest.intervals ++ [interval]
    saved :=
      if fingerprintsEqual interval.after manifest.saved.fingerprint then
        { manifest.saved with checkpoint := some interval.checkpoint, offBranch := false }
      else manifest.saved }

def truncate (cursor : Nat) : Manifest :=
  { manifest with
    cursor
    tip := cursor
    nextGeneration := manifest.nextGeneration + 1
    intervals := manifest.intervals.take cursor
    saved := { manifest.saved with
      checkpoint := manifest.saved.checkpoint.filter (· ≤ cursor)
      offBranch := if manifest.saved.checkpoint.any (· > cursor) then true else manifest.saved.offBranch } }

def setSaved (fingerprint : Fingerprint) : Manifest :=
  let checkpoint :=
    if fingerprintsEqual fingerprint manifest.original then some 0
    else (manifest.intervals.find? fun entry => fingerprintsEqual fingerprint entry.after).map
      Interval.checkpoint
  { manifest with saved := ⟨fingerprint, checkpoint, checkpoint.isNone⟩ }

/-- The manifest with the archive of a checkpoint given up. -/
def withoutArchive (checkpoint : Nat) (code message : String) : Manifest :=
  { manifest with
    intervals := manifest.intervals.map fun entry =>
      if entry.checkpoint = checkpoint then { entry with state := .unavailable code message } else entry }

/-- A cursor that the timeline has. -/
def checkCursor (cursor : Int) : Except TimelineStorageError Nat :=
  if cursor < 0 ∨ cursor > manifest.tip then
    .error ⟨"TIMELINE_INVALID_CURSOR", "Timeline cursor is invalid"⟩
  else .ok cursor.toNat

/-- The interval of a checkpoint exists. -/
def checkMarked (checkpoint : Nat) : Except TimelineStorageError Unit :=
  if (checkpoint ≠ 0 ∧ (manifest.intervals[checkpoint - 1]?).any (·.checkpoint = checkpoint)) then .ok ()
  else .error ⟨"TIMELINE_INTERVAL_UNAVAILABLE",
    "Checkpoint " ++ toString checkpoint ++ " is missing from the timeline"⟩

end Manifest

/-- The calls that change a manifest, with what the writer of an archive has left and the time that
the call reads. -/
inductive Call where
  | captureInterval (options : CaptureOptions) (winner : ArchiveFile) (optimized : Bool)
  | recordUnavailable (options : CaptureOptions) (code message : String)
  | markIntervalUnavailable (checkpoint : Nat) (code message : String) (updatedAt : Text)
  | truncateFuture (cursor : Int) (updatedAt : Text)
  | setCursor (cursor : Int) (updatedAt : Text)
  | setSavedFingerprint (fingerprint : FingerprintInput) (updatedAt : Text)
deriving DecidableEq, Repr

/-- The manifest that a call builds. -/
def candidate (maxCheckpoints : Nat) (manifest : Manifest) : Call → Except TimelineStorageError Manifest
  | .captureInterval options winner optimized => do
    let (before, after) ← manifest.startCapture maxCheckpoints options
    validateCandidate winner before after options.sourceChangeCount
    let interval ← Manifest.readyEntry options before after winner optimized
    .ok ((manifest.append interval).touch options.updatedAt)
  | .recordUnavailable options code message => do
    let (before, after) ← manifest.startUnavailable options
    let interval ← Manifest.unavailableEntry options before after code message
    .ok ((manifest.append interval).touch options.updatedAt)
  | .markIntervalUnavailable checkpoint code message updatedAt => do
    manifest.checkMarked checkpoint
    .ok ((manifest.withoutArchive checkpoint code message).touch updatedAt)
  | .truncateFuture cursor updatedAt => do
    let cursor ← manifest.checkCursor cursor
    .ok ((manifest.truncate cursor).touch updatedAt)
  | .setCursor cursor updatedAt => do
    let cursor ← manifest.checkCursor cursor
    .ok { manifest with cursor, updatedAt }
  | .setSavedFingerprint fingerprint updatedAt => do
    let fingerprint ← normalizeFingerprint fingerprint
    .ok ((manifest.setSaved fingerprint).touch updatedAt)

/-! Some contents of one byte, as a caller gives their fingerprints and as a manifest keeps them, and
the capture of a first interval between two of them. -/

def contentInput (value : String) : FingerprintInput := ⟨ascii "1", none, ascii "sha256", ascii value⟩

def content (value : String) : Fingerprint :=
  ⟨ascii "1", defaultDigestPluginId, ascii "sha256", ascii value⟩

/-- A second of a day. -/
def instant (second : String) : Text := ascii "1970-01-01T00:00:" ++ ascii second ++ ascii ".000Z"

def firstOptions : CaptureOptions :=
  ⟨1, 1, ascii "1", contentInput "0a", contentInput "0b", .plain, none, none, instant "01", instant "01"⟩

def firstArchive : ArchiveFile where
  complete := true
  unavailableChangeCount := ascii "0"
  before := content "0a"
  after := content "0b"
  sourceChangeCount := ascii "1"
  changeCount := ascii "1"
  requiredPlugins := []
  byteLength := ascii "512"
  sha256 := List.replicate 64 (97 : CodeUnit)

end OmegaEdit.Timeline
