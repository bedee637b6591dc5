import Mathlib.Logic.Function.Basic
import OmegaEdit.Library.Threads
import OmegaEdit.Timeline.Manifest

/-! The calls of a timeline session, cut at the places where they wait for the file system, so
that others can run in between. The manifest is kept in memory and in `manifest.json`; the
archives of intervals are files under `intervals/`, named by the checkpoint only. What a call
writes under `temp/` has a name of its own and is carried along by the call. Each operation on
files may fail, and so may the bookkeeping of the quota, whose numbers are left out. -/
namespace OmegaEdit.Timeline
open Utf16

/-- The places where a call can fail: the fault points of the session and its operations on files. -/
inductive Point where
  | ownedTreeBytes
  | sessionQuota
  | reserve
  | rawFileCreate
  | rawHeaderWrite
  | rawEntryWrite
  | writeRaw
  | rawFlushClose
  | openRaw
  | rawValidated
  | optimizedBaseline
  | reserveOptimized
  | optimizedFileCreate
  | writeOptimized
  | optimizedWritten
  | openOptimized
  | optimizedValidated
  | winnerRename
  | renameArchive
  | loserRemoval
  | removeLoser
  | manifestTemporaryWrite
  | writeTemporary
  | manifestRename
  | renameManifest
  | branchManifestCommit
  | cursorManifestCommit
  | savedManifestCommit
  | unavailableManifestCommit
  | removeArchive
  | reconcile
deriving DecidableEq, Repr

/-- Which places fail, and with what. -/
abbrev Faults := Point → Option TimelineStorageError

/-- The first of some places that fails. -/
def Faults.first (faults : Faults) (points : List Point) : Option TimelineStorageError :=
  points.findSome? faults

structure Storage where
  value : Manifest
  disk : Manifest
  files : Text → Option ArchiveFile

namespace Storage

/-- The storage of a new session. -/
def create (original : Fingerprint) (updatedAt : Text) : Storage :=
  ⟨.initial original updatedAt, .initial original updatedAt, fun _ => none⟩

def write (storage : Storage) (name : Text) (file : ArchiveFile) : Storage :=
  { storage with files := Function.update storage.files name (some file) }

def remove (storage : Storage) (name : Text) : Storage :=
  { storage with files := Function.update storage.files name none }

end Storage

/-- The archive of a checkpoint, checked against its entry. -/
def openInterval (storage : Storage) (checkpoint : Nat) : Except TimelineStorageError ArchiveFile :=
  let unavailable : Except TimelineStorageError ArchiveFile := .error
    ⟨"TIMELINE_INTERVAL_UNAVAILABLE", "Checkpoint " ++ toString checkpoint ++ " is unavailable"⟩
  match if checkpoint = 0 then none else storage.value.intervals[checkpoint - 1]? with
  | none => unavailable
  | some entry =>
    match entry.state with
    | .unavailable _ _ => unavailable
    | .ready archive =>
      if !isIntervalFile archive.file then
        .error ⟨"TIMELINE_UNSAFE_PATH", "Archive filename is invalid"⟩
      else
        match storage.files archive.file with
        | none => .error ⟨"ENOENT", "no such file or directory"⟩
        | some opened =>
          if opened.byteLength ≠ archive.byteLength then
            .error ⟨"TIMELINE_ARCHIVE_CHANGED",
              "Checkpoint " ++ toString checkpoint ++ " archive length changed"⟩
          else if opened.sha256 ≠ archive.sha256 ∨ !fingerprintsEqual opened.before entry.before ∨
              !fingerprintsEqual opened.after entry.after then
            .error ⟨"TIMELINE_ARCHIVE_CHANGED",
              "Checkpoint " ++ toString checkpoint ++ " archive verification failed"⟩
          else .ok opened

/-- A call, with the change logs that the writers of a capture leave and the time that it reads. -/
inductive Request where
  | captureInterval (options : CaptureOptions) (raw : ArchiveFile) (optimized : Option ArchiveFile)
  | recordUnavailable (options : CaptureOptions) (code message : String)
  | markIntervalUnavailable (checkpoint : Nat) (code message : String) (updatedAt : Text)
  | truncateFuture (cursor : Int) (updatedAt : Text)
  | setCursor (cursor : Int) (updatedAt : Text)
  | setSavedFingerprint (fingerprint : FingerprintInput) (updatedAt : Text)
deriving DecidableEq, Repr

/-- A capture that has passed its checks. -/
structure Capture where
  options : CaptureOptions
  raw : ArchiveFile
  optimized : Option ArchiveFile
  before : Fingerprint
  after : Fingerprint
deriving DecidableEq, Repr

/-- `finalPath`. -/
def Capture.file (capture : Capture) : Text := intervalFile capture.options.checkpoint

/-- The number of bytes of a file. -/
def ArchiveFile.size (file : ArchiveFile) : Nat := (Decimal.parse file.byteLength).getD 0

/-- The optimized change log, if it was written, is valid and is shorter. -/
def Capture.optimizedWinner (capture : Capture) (faults : Faults) : Option ArchiveFile :=
  if capture.raw.size > 1 then
    capture.optimized.filter fun optimized =>
      faults.first [.optimizedBaseline, .reserveOptimized, .optimizedFileCreate, .writeOptimized,
          .optimizedWritten, .openOptimized] = none ∧
        validateCandidate optimized capture.before capture.after capture.options.sourceChangeCount = .ok () ∧
        faults.first [.optimizedValidated] = none ∧ optimized.size < capture.raw.size
  else none

/-- The change log that is kept, and whether it is the optimized one. -/
def Capture.writeArchive (capture : Capture) (faults : Faults) :
    Except TimelineStorageError (ArchiveFile × Bool) :=
  match faults.first [.rawFileCreate, .rawHeaderWrite, .rawEntryWrite, .writeRaw, .rawFlushClose, .openRaw] with
  | some error => .error error
  | none =>
    match validateCandidate capture.raw capture.before capture.after capture.options.sourceChangeCount with
    | .error error => .error error
    | .ok () =>
      match faults.first [.rawValidated] with
      | some error => .error error
      | none =>
        match capture.optimizedWinner faults with
        | some optimized => .ok (optimized, true)
        | none => .ok (capture.raw, false)

/-- The manifest with the interval of a capture, if it is a valid one. -/
def Capture.buildManifest (capture : Capture) (value : Manifest) (winner : ArchiveFile) (optimized : Bool) :
    Except TimelineStorageError Manifest := do
  let entry ← Manifest.readyEntry capture.options capture.before capture.after winner optimized
  let candidate := (value.append entry).touch capture.options.updatedAt
  parseManifest candidate
  .ok candidate

/-- The call that a manifest is committed for. -/
inductive Origin where
  | captureInterval (capture : Capture) (winner : ArchiveFile)
  | recordUnavailable
  | markIntervalUnavailable
  | truncateFuture (removed : List Text)
  | setCursor
  | setSavedFingerprint
deriving DecidableEq, Repr

/-- The fault points of a call before its commit. -/
def Origin.points : Origin → List Point
  | .captureInterval _ _ | .recordUnavailable => []
  | .markIntervalUnavailable => [.unavailableManifestCommit]
  | .truncateFuture _ => [.branchManifestCommit]
  | .setCursor => [.cursorManifestCommit]
  | .setSavedFingerprint => [.savedManifestCommit]

/-- The fault points of `atomicJson` for a manifest, up to the rename. -/
def commitPoints : List Point := [.manifestTemporaryWrite, .writeTemporary, .manifestRename, .renameManifest]

/-- A call in progress, by what it does next. -/
inductive Task where
  | begin (request : Request)
  | writeArchive (capture : Capture)
  | renameArchive (capture : Capture) (winner : ArchiveFile) (optimized : Bool)
  | buildManifest (capture : Capture) (winner : ArchiveFile) (optimized : Bool)
  | storeManifest (origin : Origin) (candidate : Manifest)
  | assignValue (origin : Origin) (candidate : Manifest)
  | removeArchives (files : List Text)
  | reconcile (origin : Origin)
  | cleanUp (capture : Capture) (committed : Bool) (failure : Option TimelineStorageError)
  | finished (failure : Option TimelineStorageError)
deriving DecidableEq, Repr

/-- The files of the archives of some intervals. -/
def archiveFiles (intervals : List Interval) : List Text :=
  intervals.filterMap fun entry =>
    match entry.state with
    | .ready archive => some archive.file
    | .unavailable _ _ => none

/-- The first part of a call: the checks, and for all but a capture the new manifest. -/
def begin (maxCheckpoints : Nat) (value : Manifest) (faults : Faults) : Request → Task
  | .captureInterval options raw optimized =>
    match value.startCapture maxCheckpoints options with
    | .error error => .finished (some error)
    | .ok (before, after) =>
      match faults.first [.ownedTreeBytes, .sessionQuota, .reserve] with
      | some error => .finished (some error)
      | none => .writeArchive ⟨options, raw, optimized, before, after⟩
  | .recordUnavailable options code message =>
    commit .recordUnavailable (.recordUnavailable options code message)
  | .markIntervalUnavailable checkpoint code message updatedAt =>
    commit .markIntervalUnavailable (.markIntervalUnavailable checkpoint code message updatedAt)
  | .truncateFuture cursor updatedAt =>
    commit (.truncateFuture (archiveFiles (value.intervals.drop cursor.toNat)))
      (.truncateFuture cursor updatedAt)
  | .setCursor cursor updatedAt => commit .setCursor (.setCursor cursor updatedAt)
  | .setSavedFingerprint fingerprint updatedAt =>
    commit .setSavedFingerprint (.setSavedFingerprint fingerprint updatedAt)
where
  commit (origin : Origin) (call : Call) : Task :=
    match candidate maxCheckpoints value call with
    | .error error => .finished (some error)
    | .ok candidate =>
      match parseManifest candidate with
      | .error error => .finished (some error)
      | .ok () => .storeManifest origin candidate

/-- What a call does when its manifest could not be committed. -/
def Origin.fail (error : TimelineStorageError) : Origin → Task
  | .captureInterval capture _ => .cleanUp capture false (some error)
  | _ => .finished (some error)

/-- What a call does after its manifest has been committed. -/
def Origin.proceed : Origin → Task
  | .captureInterval capture winner => .reconcile (.captureInterval capture winner)
  | .recordUnavailable => .reconcile .recordUnavailable
  | .truncateFuture removed => .removeArchives removed
  | .markIntervalUnavailable | .setCursor | .setSavedFingerprint => .finished none

/-- The next step of a call. -/
def advance (maxCheckpoints : Nat) (storage : Storage) (task : Task) (faults : Faults) :
    Option (Storage × Task) :=
  match task with
  | .begin request => some (storage, begin maxCheckpoints storage.value faults request)
  | .writeArchive capture =>
    match capture.writeArchive faults with
    | .error error => some (storage, .cleanUp capture false (some error))
    | .ok (winner, optimized) =>
      if capture.options.expectedGeneration ≠ storage.value.nextGeneration then
        some (storage, .cleanUp capture false (some ⟨"TIMELINE_STALE_GENERATION",
          "Timeline changed while checkpoint capture was running"⟩))
      else some (storage, .renameArchive capture winner optimized)
  | .renameArchive capture winner optimized =>
    match faults.first [.winnerRename, .renameArchive] with
    | some error => some (storage, .cleanUp capture false (some error))
    | none => some (storage.write capture.file winner, .buildManifest capture winner optimized)
  | .buildManifest capture winner optimized =>
    match faults.first [.loserRemoval, .removeLoser] with
    | some error => some (storage, .cleanUp capture false (some error))
    | none =>
      match capture.buildManifest storage.value winner optimized with
      | .error error => some (storage, .cleanUp capture false (some error))
      | .ok candidate => some (storage, .storeManifest (.captureInterval capture winner) candidate)
  | .storeManifest origin candidate =>
    match faults.first (origin.points ++ commitPoints) with
    | some error => some (storage, origin.fail error)
    | none => some ({ storage with disk := candidate }, .assignValue origin candidate)
  | .assignValue origin candidate => some ({ storage with value := candidate }, origin.proceed)
  | .removeArchives [] => some (storage, .reconcile (.truncateFuture []))
  | .removeArchives (file :: files) =>
    -- a failed removal is ignored
    match faults.first [.removeArchive] with
    | some _ => some (storage, .removeArchives files)
    | none => some (storage.remove file, .removeArchives files)
  | .reconcile (.captureInterval capture _) =>
    some (storage, .cleanUp capture true (faults.first [.reconcile]))
  | .reconcile _ => some (storage, .finished (faults.first [.reconcile]))
  | .cleanUp capture committed failure =>
    -- the reconciliation that follows ignores its errors
    if !committed && faults.first [.removeArchive] = none then
      some (storage.remove capture.file, .finished failure)
    else some (storage, .finished failure)
  | .finished _ => none

/-- A call that no other one interrupts, for at most as many steps as given. -/
def complete (maxCheckpoints : Nat) (faults : Faults) : Nat → Storage → Task → Storage × Task
  | 0, storage, task => (storage, task)
  | steps + 1, storage, task =>
    match advance maxCheckpoints storage task faults with
    | none => (storage, task)
    | some (storage, task) => complete maxCheckpoints faults steps storage task

end OmegaEdit.Timeline
