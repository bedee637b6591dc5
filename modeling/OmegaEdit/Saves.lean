import OmegaEdit.Refinement

/-! Saving to a path. A workspace is a session that was opened on a file, together with the disk.
Other programs may change the disk between calls, and during a save while the output is written.
Paths that name one file are equal; modification times are always reported, and a rename is one
step. What the surroundings decide (failing system calls, free space, the time of the output, how
candidate names are formed) is given to each save. -/
namespace OmegaEdit

abbrev Path := String

structure DiskFile where
  bytes : List Byte
  modificationTime : Int
deriving DecidableEq, Repr

abbrev Disk := Path → Option DiskFile

def Disk.put (disk : Disk) (path : Path) (file : Option DiskFile) : Disk :=
  fun other => if other = path then file else disk other

/-- `ORIGINAL_MODIFIED`. -/
def originalModified : Int := -100

/-- `OMEGA_EDIT_SAVE_DIRECTORY_SYNC_FAILED`. -/
def saveDirectorySyncFailed : Int := -102

/-- `OMEGA_OUTPUT_PATH_SUFFIX_ATTEMPTS`. -/
def outputPathSuffixAttempts : Nat := 1000000

inductive SaveStage where
  | createDirectory
  | makeOutput
  | openOutput
  | flush
  | close
  | fileSize
  | replace
  | syncDirectory
deriving DecidableEq, Repr

structure Surroundings where
  fails : SaveStage → Bool
  /-- How many bytes can be written, if that is bounded. -/
  room : Option Nat
  /-- The name that a path gets with a number before its extension. -/
  numbered : Path → Nat → Path
  /-- What other programs do to the disk while the output is written. -/
  meanwhile : Disk → Disk
  /-- The modification time of the output. -/
  now : Int

structure SaveRequest where
  filePath : Path
  ioFlags : Nat
  offset : Int
  length : Int
  overwriteGuard : Option (Path → Int)

/-- `IO_FLG_FORCE_OVERWRITE`. -/
def SaveRequest.forceOverwrite (request : SaveRequest) : Bool := request.ioFlags.testBit 1

/-- Either of the two flags. -/
def SaveRequest.overwrite (request : SaveRequest) : Bool :=
  request.forceOverwrite || request.ioFlags.testBit 0

structure Workspace where
  session : Session
  /-- The file that the session was opened on. -/
  filePath : Path
  checkpointFilePath : Nat → Path
  originalFileModificationTime : Int
  originalFileModificationTimeValid : Bool
  disk : Disk

/-- The loop over the segments, with the bytes written so far and their number. The result is a
failure code or what has been written. -/
def saveLoop (file : Option CheckpointFile) (room : Option Nat) (offset adjustedLength : Int) :
    Int → List Byte → List ModelSegment → Except Fault (Except Int (List Byte × Int))
  | bytesWritten, written, [] => .ok (.ok (written, bytesWritten))
  | bytesWritten, written, segment :: rest =>
    if adjustedLength ≤ bytesWritten then .ok (.ok (written, bytesWritten))
    else match safeAdd segment.computedOffset segment.computedLength with
      | none => .ok (.error (-6))
      | some segmentEnd =>
        if segmentEnd ≤ offset then
          saveLoop file room offset adjustedLength bytesWritten written rest
        else do
          let failure : Int := match segment.kind with
            | .read => -6
            | .insert => -7
          let segmentStart := max (offset - segment.computedOffset) 0
          let segmentLength :=
            min (adjustedLength - bytesWritten) (segment.computedLength - segmentStart)
          match safeAdd segment.changeOffset segmentStart with
          | none => .ok (.error failure)
          | some sourceOffset =>
            match ← copyChunks (readSource file segment) segmentLength.toNat sourceOffset
                segmentLength with
            | none => .ok (.error failure)
            | some bytes =>
              if room.any ((written ++ bytes).length > ·) then .ok (.error failure)
              else match safeAdd bytesWritten segmentLength with
                | none => .ok (.error (-8))
                | some bytesWritten =>
                  saveLoop file room offset adjustedLength bytesWritten (written ++ bytes) rest

/-- The output file, or why it was given up. -/
def writeOutput (model : Model) (surroundings : Surroundings) (offset adjustedLength : Int) :
    Except Fault (Except Int (List Byte)) := do
  match ← saveLoop model.file surroundings.room offset adjustedLength 0 []
      (segmentsFrom offset model.modelSegments) with
  | .error code => .ok (.error code)
  | .ok (written, bytesWritten) =>
    if surroundings.fails .flush || surroundings.fails .close then .ok (.error (-8))
    else if bytesWritten ≠ adjustedLength then .ok (.error (-8))
    else if surroundings.fails .fileSize ∨ bytesWritten ≠ written.length then .ok (.error (-9))
    else .ok (.ok written)

/-- `reserve_output_path_`: the first candidate that does not exist. -/
def reserveOutputPath (disk : Disk) (numbered : Path → Nat → Path) (requested : Path) :
    Option Path :=
  if (disk requested).isNone then some requested
  else search (outputPathSuffixAttempts - 1) 1
where
  search : Nat → Nat → Option Path
    | 0, _ => none
    | attempts + 1, suffix =>
      if (disk (numbered requested suffix)).isNone then some (numbered requested suffix)
      else search attempts (suffix + 1)

/-- What a save leaves and answers, with the path of the saved file. -/
structure Saved where
  workspace : Workspace
  result : Int
  savedFilePath : Option Path

namespace Workspace
variable (workspace : Workspace)

/-- `omega_session_get_file_path`: the path of the file below the active model. -/
def sessionFilePath : Option Path :=
  workspace.session.top.file.map fun file =>
    if file.name = 0 then workspace.filePath else workspace.checkpointFilePath file.name

def originalFileModifiedSinceLastSync (path : Option Path) : Bool :=
  match path.bind workspace.disk with
  | none => false
  | some file => workspace.originalFileModificationTimeValid &&
    decide (workspace.originalFileModificationTime < file.modificationTime)

/-- The session after `refresh_original_file_modification_time_`, and its result. -/
def refreshOriginalFileModificationTime (path : Path) : Workspace × Int :=
  match workspace.disk path with
  | none => ({ workspace with originalFileModificationTimeValid := false }, -2)
  | some file =>
    ({ workspace with
        originalFileModificationTime := file.modificationTime
        originalFileModificationTimeValid := true }, 0)

def overwriteOriginal (request : SaveRequest) : Bool :=
  request.overwrite && (workspace.disk request.filePath).isSome &&
    decide (workspace.sessionFilePath = some request.filePath)

def adjustedLength (request : SaveRequest) : Int :=
  let remaining := workspace.session.computedFileSize - request.offset
  if request.length ≤ 0 then remaining else min request.length remaining

def failed (code : Int) : Saved := ⟨workspace, code, none⟩

/-- The end of a save: the directory is synchronised and the time of the original taken over. -/
def finishSave (surroundings : Surroundings) (overwriteOriginal : Bool) (outputPath : Path) :
    Saved :=
  if surroundings.fails .syncDirectory then workspace.failed saveDirectorySyncFailed
  else if overwriteOriginal then
    let refreshed := workspace.refreshOriginalFileModificationTime outputPath
    if refreshed.2 ≠ 0 then refreshed.1.failed (-13) else ⟨refreshed.1, 0, some outputPath⟩
  else ⟨workspace, 0, some outputPath⟩

/-- The output is in a temporary file: check the original again and replace the target. -/
def replaceTarget (request : SaveRequest) (surroundings : Surroundings) (overwriteOriginal : Bool)
    (bytes : List Byte) : Saved :=
  if overwriteOriginal && !request.forceOverwrite &&
      workspace.originalFileModifiedSinceLastSync workspace.sessionFilePath &&
      request.overwriteGuard.all (fun guard => guard request.filePath != 0) then
    workspace.failed originalModified
  else if surroundings.fails .replace then workspace.failed (-12)
  else
    { workspace with
      disk := workspace.disk.put request.filePath (some ⟨bytes, surroundings.now⟩) }.finishSave
        surroundings overwriteOriginal request.filePath

/-- The disk after the other programs have had their time. -/
def later (surroundings : Surroundings) : Workspace :=
  { workspace with disk := surroundings.meanwhile workspace.disk }

def saveOverwriting (request : SaveRequest) (surroundings : Surroundings) : Except Fault Saved :=
  if surroundings.fails .makeOutput then .ok (workspace.failed (-4))
  else if surroundings.fails .openOutput then .ok (workspace.failed (-5))
  else do
    match ← writeOutput workspace.session.top surroundings request.offset
        (workspace.adjustedLength request) with
    | .error code => .ok ((workspace.later surroundings).failed code)
    | .ok bytes =>
      .ok ((workspace.later surroundings).replaceTarget request surroundings
        (workspace.overwriteOriginal request) bytes)

def saveReserved (request : SaveRequest) (surroundings : Surroundings) : Except Fault Saved :=
  if surroundings.fails .makeOutput then .ok (workspace.failed (-4))
  else match reserveOutputPath workspace.disk surroundings.numbered request.filePath with
    | none => .ok (workspace.failed (-4))
    | some outputPath => do
      match ← writeOutput workspace.session.top surroundings request.offset
          (workspace.adjustedLength request) with
      | .error code => .ok ((workspace.later surroundings).failed code)
      | .ok bytes =>
        let later := workspace.later surroundings
        .ok ({ later with
          disk := later.disk.put outputPath (some ⟨bytes, surroundings.now⟩) }.finishSave
            surroundings false outputPath)

/-- The first check, which is made before anything is written. -/
def refusesModified (request : SaveRequest) : Bool :=
  workspace.overwriteOriginal request && !request.forceOverwrite &&
    request.overwriteGuard.isNone &&
    workspace.originalFileModifiedSinceLastSync workspace.sessionFilePath

def saveSegmentWithOptions (request : SaveRequest) (surroundings : Surroundings) :
    Except Fault Saved :=
  if request.filePath = "" ∨ request.offset < 0 then .ok (workspace.failed (-1))
  else if workspace.session.computedFileSize < 0 then .ok (workspace.failed (-1))
  else if workspace.adjustedLength request < 0 then .ok (workspace.failed (-1))
  else if workspace.refusesModified request then .ok (workspace.failed originalModified)
  else if surroundings.fails .createDirectory then .ok (workspace.failed (-2))
  else if request.overwrite then workspace.saveOverwriting request surroundings
  else workspace.saveReserved request surroundings

end Workspace

/-- What happens to a workspace. -/
inductive Action where
  | call (call : Call)
  | outside (path : Path) (file : Option DiskFile)
  | save (request : SaveRequest) (surroundings : Surroundings)

def Workspace.step (workspace : Workspace) : Action → Except Fault (Workspace × Int)
  | .call call => do
    let (session, result) ← workspace.session.step call
    .ok ({ workspace with session }, result)
  | .outside path file => .ok ({ workspace with disk := workspace.disk.put path file }, 0)
  | .save request surroundings => do
    let saved ← workspace.saveSegmentWithOptions request surroundings
    .ok (saved.workspace, saved.result)

/-- A session that has just been opened on a file of the disk. -/
def Workspace.opened (disk : Disk) (filePath : Path) (original : OriginalFile)
    (modificationTime : Int) (checkpointFilePath : Nat → Path) (interval limit : Int) :
    Workspace where
  session := createSession (some original) interval limit
  filePath := filePath
  checkpointFilePath := checkpointFilePath
  originalFileModificationTime := modificationTime
  originalFileModificationTimeValid := true
  disk := disk.put filePath (some ⟨original.bytes, modificationTime⟩)

end OmegaEdit
