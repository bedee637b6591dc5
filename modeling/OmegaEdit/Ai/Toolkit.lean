import OmegaEdit.Library.Effects
import OmegaEdit.ChangeLog.Scan

/-! The toolkit that replays a change log on a session of the server. The toolkit sees the
session through requests, and each of them may be answered, be refused, or be carried out with
its answer lost. What other clients do, cancellation, statistics and the texts of messages are
left out; a failure says which check or which request it comes from. -/
namespace OmegaEdit.Ai
open Utf16 ChangeLog

/-- What the server records for a request that changes content. -/
inductive Edit where
  | insert (offset : Nat) (data : List Byte)
  | delete (offset length : Nat)
  | overwrite (offset : Nat) (data : List Byte)
  | transform (descriptor : TransformDescriptor) (offset length : Nat)
deriving DecidableEq

/-- What the installed plugins make of a range of a content. -/
abbrev Plugins := TransformDescriptor → Nat → Nat → List Byte → List Byte

namespace Edit

def apply (plugins : Plugins) (content : List Byte) : Edit → List Byte
  | insert offset data => Splice.splice content offset 0 data
  | delete offset length => Splice.splice content offset length []
  | overwrite offset data => Splice.splice content offset data.length data
  | transform descriptor offset length => plugins descriptor offset length content

/-- The edits the core gives a serial to. -/
def accepted (content : List Byte) : Edit → Bool
  | insert offset data => !data.isEmpty && decide (offset ≤ content.length)
  | delete offset length => length != 0 && decide (offset < content.length)
  | overwrite offset data => !data.isEmpty && decide (offset ≤ content.length)
  | transform _ _ _ => true

end Edit

structure RemoteSession where
  original : List Byte
  /-- The active changes, the oldest first. -/
  changes : List Edit
  transactionOpen : Bool

namespace RemoteSession

def content (plugins : Plugins) (session : RemoteSession) : List Byte :=
  session.changes.foldl (Edit.apply plugins) session.original

def changeCount (session : RemoteSession) : Nat := session.changes.length

def record (edit : Edit) (session : RemoteSession) : RemoteSession :=
  { session with changes := session.changes ++ [edit] }

end RemoteSession

inductive Rpc where
  | ensureServerRunning
  | submitChange
  | applyTransformPlugin
  | beginSessionTransaction
  | endSessionTransaction
  | getComputedFileSize
  | getSessionFingerprint
  | getChangeCount
  | getCounts
  | listTransformPlugins
  | restoreToChangeCount
deriving DecidableEq, Repr

inductive Outcome where
  | answered
  | refused
  /-- The server carries the request out, and the toolkit sees a failure. -/
  | lost
deriving DecidableEq, Repr

structure TransformResponse where
  pluginId : Text
  offset : Nat
  length : Nat
  replacementLength : Nat
  computedFileSize : Nat
  serial : Option Nat
  contentChanged : Bool

structure RestoreToChangeCountResponse where
  changeCount : Nat
  discardedChangeCount : Nat
  discardedUndoCount : Nat
  remainingCheckpointCount : Nat

structure Digest where
  algorithm : Text
  value : Text

/-- What decides the answers to the requests, which are numbered in the order they are sent. -/
structure Environment where
  engine : Engine
  plugins : Plugins
  outcome : Nat → Outcome
  /-- The digest of a content by a plugin and an algorithm, if the response carries one. -/
  digest : Text → Text → List Byte → Option Digest
  installedPlugins : List Text
  checkpointCount : Nat → Nat
  transformed : Nat → TransformResponse
  restored : Nat → RestoreToChangeCountResponse
  /-- The changes that a restore leaves when it fails. -/
  leftByRestore : Nat → List Edit

structure SafetyFingerprints where
  actual : NormalizedFingerprint
  expected : NormalizedFingerprint

/-- The issues of a preview; each of them is an error. -/
inductive SafetyIssue where
  | unavailablePrimitives (serials : List Text)
  | beforeFingerprintMismatch (fingerprints : SafetyFingerprints)
  | missingTransformPlugin (pluginId : Text)

/-- Present once the session was inspected. -/
structure RollbackProtection where
  targetChangeCount : Nat
  checkpointCount : Nat

structure ChangeLogPreview where
  canApply : Bool
  current : Option NormalizedFingerprint
  requiredPlugins : List Text
  missingPlugins : List Text
  rollbackProtection : Option RollbackProtection
  safetyIssues : List SafetyIssue

structure Rollback where
  attempted : Bool
  succeeded : Option Bool
  rolledBack : Option Bool
  targetChangeCount : Option Nat

structure ApplyChangeLogResult where
  applied : Bool
  appliedCount : Nat
  changeCount : Nat
  inputChangeCount : Nat
  preview : ChangeLogPreview
  rollback : Rollback
  finalFingerprint : Option NormalizedFingerprint

inductive Failure where
  | request (rpc : Rpc)
  | codec (error : CodecError)
  | fileChanged
  | notNonNegativeInt64 (name : String)
  | unsafeInteger (name : String)
  | transformNotNormalized
  | noContentChange (transformId : Text)
  | replayedPlugin (transformId : Text)
  | replayedRange (transformId : Text)
  | replayedSize (transformId : Text)
  | replayedSessionSize (transformId : Text)
  | fingerprintMismatch (fingerprints : SafetyFingerprints)
  | rollbackEnded (changeCount expected : Nat)
  | unsafeReplay
  /-- `ChangeLogReplayError`, with what it comes from. -/
  | replay (cause : Failure) (result : ApplyChangeLogResult)
  /-- `ChangeLogReplayError` after a rollback that failed as well. -/
  | rollbackFailed (cause rollbackError : Failure) (result : ApplyChangeLogResult)

namespace Failure

/-- What the error of a replay reports of its rollback. -/
def rollback : Failure → Option Rollback
  | replay _ result => some result.rollback
  | rollbackFailed _ _ result => some result.rollback
  | _ => none

def isChangeLogReplayError (failure : Failure) : Bool := failure.rollback.isSome

end Failure

/-- The session, the number of requests sent and `appliedChangeCount`. -/
structure World where
  session : RemoteSession
  requests : Nat
  appliedChangeCount : Nat

abbrev Toolkit := EStateM Failure World

/-- `requireSafeIntegerInput` and `requireSafeIntegerOutput`. -/
def requireSafeInteger (name : String) (value : Nat) : Toolkit Nat :=
  if value ≤ maxSafeInteger then pure value else throw (.unsafeInteger name)

def maxInt64 : Nat := 9223372036854775807

def normalizeNonNegativeInt64ForClient (value : Text) (name : String) : Except Failure Nat :=
  match Decimal.parse value with
  | none => .error (.notNonNegativeInt64 name)
  | some parsed =>
    if parsed > maxInt64 then .error (.notNonNegativeInt64 name)
    else if parsed > maxSafeInteger then .error (.unsafeInteger name)
    else .ok parsed

/-- One pass over the entries of a file that was opened before. -/
inductive Pass where
  | unchanged
  /-- The file is another one: some entries come out, then the pass fails. -/
  | changed (yielded : List NormalizedEntry)

inductive Source where
  | document (changes : Json.Value)
  /-- A file, and what its three passes find: opening, validation and replay. -/
  | file (chunks : List Chunk) (opening validation replay : Pass)

structure ApplyChangeLogRequest where
  source : Source
  dryRun : Bool

structure ParsedChangeLog where
  result : ScanResult
  entries : List NormalizedEntry
  /-- The pass of the replay. -/
  replay : Pass

def Pass.yields (entries : List NormalizedEntry) : Pass → List NormalizedEntry
  | unchanged => entries
  | changed yielded => yielded

def Pass.finish : Pass → Except Failure Unit
  | unchanged => .ok ()
  | changed _ => .error .fileChanged

/-- The check of one entry before anything is previewed or changed. -/
def validateRange (entry : NormalizedEntry) : Except Failure Unit := do
  let _ ← normalizeNonNegativeInt64ForClient entry.offset "change log entry offset"
  let _ ← normalizeNonNegativeInt64ForClient entry.length "change log entry length"

section Requests
variable (env : Environment)

def openChangeLog : Source → Except Failure (List NormalizedEntry × ScanResult × Pass × Pass)
  | .document changes => do
    let (entries, result) ←
      (normalizeChangeLogDocument env.engine defaultCodecLimits changes).mapError .codec
    .ok (entries, result, .unchanged, .unchanged)
  | .file chunks opening validation replay => do
    let (entries, result) ←
      (scanChangeLogJson Utf8.decoder env.engine defaultCodecLimits chunks).mapError .codec
    opening.finish
    .ok (entries, result, validation, replay)

def readChangeLogRequest (request : ApplyChangeLogRequest) : Except Failure ParsedChangeLog := do
  let (entries, result, validation, replay) ← openChangeLog env request.source
  (validation.yields entries).forM validateRange
  validation.finish
  .ok { result, entries, replay }

/-- Send a request; the server may also turn it down by itself. -/
def request {α : Type} (rpc : Rpc) (perform : Nat → RemoteSession → Option (RemoteSession × α)) :
    Toolkit α := fun world =>
  let sent := { world with requests := world.requests + 1 }
  match env.outcome world.requests, perform world.requests world.session with
  | .answered, some (session, answer) => .ok answer { sent with session }
  | .lost, some (session, _) => .error (.request rpc) { sent with session }
  | _, _ => .error (.request rpc) sent

def query {α : Type} (rpc : Rpc) (answer : Nat → RemoteSession → Option α) : Toolkit α :=
  request env rpc fun number session => (answer number session).map fun value => (session, value)

def ensureServerRunning : Toolkit Unit := query env .ensureServerRunning fun _ _ => some ()

def submitChange (edit : Edit) : Toolkit Nat := do
  let serial ← request env .submitChange fun _ session =>
    if edit.accepted (session.content env.plugins) then
      some (session.record edit, (session.record edit).changeCount)
    else none
  requireSafeInteger "change serial" serial

def insert (offset : Nat) (data : List Byte) : Toolkit Nat := do
  let offset ← requireSafeInteger "insert offset" offset
  submitChange env (.insert offset data)

def del (offset length : Nat) : Toolkit Nat := do
  let offset ← requireSafeInteger "delete offset" offset
  let length ← requireSafeInteger "delete length" length
  submitChange env (.delete offset length)

def overwrite (offset : Nat) (data : List Byte) : Toolkit Nat := do
  let offset ← requireSafeInteger "overwrite offset" offset
  submitChange env (.overwrite offset data)

/-- The server opens a transaction, and leaves an open one as it is. -/
def beginSessionTransaction : Toolkit Unit :=
  request env .beginSessionTransaction fun _ session =>
    some ({ session with transactionOpen := true }, ())

def endSessionTransaction : Toolkit Unit :=
  request env .endSessionTransaction fun _ session =>
    some ({ session with transactionOpen := false }, ())

def runSessionTransaction {α : Type} (work : Toolkit α) : Toolkit α := do
  beginSessionTransaction env
  try work finally endSessionTransaction env

def replace (offset removed : Nat) (replacement : List Byte) : Toolkit Nat := do
  let offset ← requireSafeInteger "replace offset" offset
  let removed ← requireSafeInteger "replace length" removed
  if removed = 0 then insert env offset replacement
  else if replacement.length = 0 then del env offset removed
  else if replacement.length = removed then overwrite env offset replacement
  else runSessionTransaction env do
    let _ ← del env offset removed
    insert env offset replacement

def getComputedFileSize : Toolkit Nat := do
  let size ← query env .getComputedFileSize fun _ session =>
    some (session.content env.plugins).length
  requireSafeInteger "computed file size" size

def getChangeCount : Toolkit Nat := do
  let count ← query env .getChangeCount fun _ session => some session.changeCount
  requireSafeInteger "change count" count

/-- The server records a transform when it changes content. -/
def applyTransformPlugin (descriptor : TransformDescriptor) (offset length : Nat) :
    Toolkit TransformResponse := do
  let offset ← requireSafeInteger "applyTransformPlugin offset" offset
  let length ← requireSafeInteger "applyTransformPlugin length" length
  let response ← request env .applyTransformPlugin fun number session =>
    if (env.transformed number).contentChanged then
      some (session.record (.transform descriptor offset length), env.transformed number)
    else some (session, env.transformed number)
  let _ ← requireSafeInteger "applyTransformPlugin offset" response.offset
  let _ ← requireSafeInteger "applyTransformPlugin length" response.length
  let _ ← requireSafeInteger "applyTransformPlugin computed file size" response.computedFileSize
  let _ ← requireSafeInteger "applyTransformPlugin replacement length" response.replacementLength
  let _ ← requireSafeInteger "applyTransformPlugin serial" (response.serial.getD 0)
  pure response

/-- A restore that succeeds leaves the first changes; one that fails may leave anything. -/
def restore (changeCount : Nat) : Toolkit RestoreToChangeCountResponse := fun world =>
  let left (changes : List Edit) : World :=
    { world with requests := world.requests + 1, session := { world.session with changes } }
  match env.outcome world.requests with
  | .answered => .ok (env.restored world.requests) (left (world.session.changes.take changeCount))
  | _ => .error (.request .restoreToChangeCount) (left (env.leftByRestore world.requests))

def restoreToChangeCount (changeCount : Nat) : Toolkit RestoreToChangeCountResponse := do
  let changeCount ← requireSafeInteger "restore change count" changeCount
  let response ← restore env changeCount
  let _ ← requireSafeInteger "change count" response.changeCount
  let _ ← requireSafeInteger "discarded change count" response.discardedChangeCount
  let _ ← requireSafeInteger "discarded undo count" response.discardedUndoCount
  let _ ← requireSafeInteger "remaining checkpoint count" response.remainingCheckpointCount
  pure response

def rollbackSessionToChangeCount (targetChangeCount : Nat) : Toolkit Bool := do
  let response ← restoreToChangeCount env targetChangeCount
  if response.changeCount ≠ targetChangeCount then
    throw (.rollbackEnded response.changeCount targetChangeCount)
  else pure (decide (response.discardedChangeCount > 0) || decide (response.discardedUndoCount > 0))

/-- The fingerprint of a content, as the toolkit writes it. -/
def Environment.fingerprint (algorithm pluginId : Text) (content : List Byte) :
    Option NormalizedFingerprint :=
  (env.digest pluginId algorithm content).map fun digest =>
    { byteLength := Decimal.render content.length, pluginId
      algorithm := digest.algorithm.map lower, value := digest.value.map lower }

def getChangeLogFingerprint (algorithm pluginId : Text) : Toolkit NormalizedFingerprint := do
  let (size, fingerprint) ← query env .getSessionFingerprint fun _ session =>
    (env.fingerprint algorithm pluginId (session.content env.plugins)).map fun fingerprint =>
      ((session.content env.plugins).length, fingerprint)
  let _ ← requireSafeInteger "change log integer" size
  pure fingerprint

def fingerprintsMatch (actual expected : NormalizedFingerprint) : Bool :=
  actual.byteLength == expected.byteLength && actual.pluginId == expected.pluginId &&
    actual.algorithm == expected.algorithm && actual.value == expected.value

def assertCurrentSessionFingerprint (expected : NormalizedFingerprint) : Toolkit Unit := do
  let actual ← getChangeLogFingerprint env expected.algorithm expected.pluginId
  if fingerprintsMatch actual expected then pure ()
  else throw (.fingerprintMismatch ⟨actual, expected⟩)

def unavailableIssues (serials : List Text) : List SafetyIssue :=
  if serials.isEmpty then [] else [.unavailablePrimitives serials]

def beforeIssues (current before : NormalizedFingerprint) : List SafetyIssue :=
  if fingerprintsMatch current before then [] else [.beforeFingerprintMismatch ⟨current, before⟩]

def createPreview (parsed : ParsedChangeLog) (current : Option NormalizedFingerprint)
    (missingPlugins : List Text) (rollbackProtection : Option RollbackProtection)
    (issues : List SafetyIssue) : ChangeLogPreview :=
  { canApply := issues.isEmpty, current
    requiredPlugins := parsed.result.requiredPlugins
    missingPlugins := missingPlugins.dedup.insertionSort (fun a b => precedesOrSame a b)
    rollbackProtection, safetyIssues := issues }

def createChangeLogPreview (parsed : ParsedChangeLog) (inspectSession : Bool) :
    Toolkit ChangeLogPreview := do
  let unavailable := unavailableIssues parsed.result.header.unavailableChangeSerials
  if inspectSession then
    let before := parsed.result.header.before
    let current ← getChangeLogFingerprint env before.algorithm before.pluginId
    let targetChangeCount ← getChangeCount env
    let checkpointCount ← query env .getCounts fun number _ => some (env.checkpointCount number)
    let installed ← query env .listTransformPlugins fun _ _ => some env.installedPlugins
    let missing := parsed.result.requiredPlugins.filter fun pluginId => !installed.contains pluginId
    pure (createPreview parsed (some current) missing (some ⟨targetChangeCount, checkpointCount⟩)
      (unavailable ++ beforeIssues current before ++ missing.map .missingTransformPlugin))
  else pure (createPreview parsed none [] none unavailable)

def assertTransformReplayResponse (descriptor : TransformDescriptor) (offset length : Nat)
    (computedFileSizeBefore computedFileSizeAfter : Nat) (response : TransformResponse) :
    Except Failure Unit :=
  if response.pluginId ≠ descriptor.transformId then .error (.replayedPlugin descriptor.transformId)
  else if response.offset ≠ offset ∨ response.length ≠ length then
    .error (.replayedRange descriptor.transformId)
  else if (response.computedFileSize : Int) ≠
      computedFileSizeBefore - response.length + response.replacementLength then
    .error (.replayedSize descriptor.transformId)
  else if computedFileSizeAfter ≠ response.computedFileSize then
    .error (.replayedSessionSize descriptor.transformId)
  else .ok ()

def applyTransform (descriptor : TransformDescriptor) (offset length : Nat) : Toolkit Unit := do
  let computedFileSizeBefore ← getComputedFileSize env
  let response ← applyTransformPlugin env descriptor offset length
  if !response.contentChanged then throw (.noContentChange descriptor.transformId)
  else
    let computedFileSizeAfter ← getComputedFileSize env
    MonadExcept.ofExcept (assertTransformReplayResponse descriptor offset length
      computedFileSizeBefore computedFileSizeAfter response)

def applyChange (change : NormalizedEntry) : Toolkit Unit := do
  let offset ← MonadExcept.ofExcept
    (normalizeNonNegativeInt64ForClient change.offset "change log entry offset")
  let length ← MonadExcept.ofExcept
    (normalizeNonNegativeInt64ForClient change.length "change log entry length")
  match change.kind with
  | .insert => discard (insert env offset (hexBytes change.data))
  | .delete => discard (del env offset length)
  | .overwrite => discard (overwrite env offset (hexBytes change.data))
  | .replace => discard (replace env offset length (hexBytes change.data))
  | .transform =>
    match change.transformDescriptor with
    | none => throw .transformNotNormalized
    | some descriptor => applyTransform env descriptor offset length

def applyAndCountChange (change : NormalizedEntry) : Toolkit Unit := do
  applyChange env change
  modify fun world => { world with appliedChangeCount := world.appliedChangeCount + 1 }

def maxReplayBatchEntries : Nat := 1024

def flushBatch (pendingBatch : List NormalizedEntry) : Toolkit Unit :=
  if pendingBatch.isEmpty then pure ()
  else runSessionTransaction env (pendingBatch.forM (applyAndCountChange env))

/-- The loop over the entries; it ends with the batch that is still pending. -/
def replayEntries : List NormalizedEntry → List NormalizedEntry → Toolkit (List NormalizedEntry)
  | pendingBatch, [] => pure pendingBatch
  | pendingBatch, change :: rest =>
    if change.kind = .transform then do
      flushBatch env pendingBatch
      applyAndCountChange env change
      replayEntries [] rest
    else if (pendingBatch ++ [change]).length ≥ maxReplayBatchEntries then do
      flushBatch env (pendingBatch ++ [change])
      replayEntries [] rest
    else replayEntries (pendingBatch ++ [change]) rest

/-- What `applyChangeLog` tries. -/
def replayChangeLog (parsed : ParsedChangeLog) : Toolkit Unit := do
  let pendingBatch ← replayEntries env [] (parsed.replay.yields parsed.entries)
  MonadExcept.ofExcept parsed.replay.finish
  flushBatch env pendingBatch
  assertCurrentSessionFingerprint env parsed.result.header.after

def getFinalFingerprint (parsed : ParsedChangeLog) : Toolkit (Option NormalizedFingerprint) :=
  let after := parsed.result.header.after
  tryCatch (do
    let fingerprint ← getChangeLogFingerprint env after.algorithm after.pluginId
    pure (some fingerprint)) fun _ => pure none

def createReplayResult (parsed : ParsedChangeLog) (preview : ChangeLogPreview) (applied : Bool)
    (appliedCount : Nat) (rollback : Rollback) (finalFingerprint : Option NormalizedFingerprint) :
    ApplyChangeLogResult :=
  { applied, appliedCount, changeCount := appliedCount, inputChangeCount := parsed.result.entryCount
    preview, rollback, finalFingerprint }

/-- What `applyChangeLog` does about an error of the replay. -/
def rollBackReplay (parsed : ParsedChangeLog) (preview : ChangeLogPreview) (startChangeCount : Nat)
    (error : Failure) : Toolkit Unit :=
  tryCatch (do
    let rolledBack ← rollbackSessionToChangeCount env startChangeCount
    let finalFingerprint ← getFinalFingerprint env parsed
    let world ← get
    throw (.replay error (createReplayResult parsed preview false world.appliedChangeCount
      ⟨true, some true, some rolledBack, some startChangeCount⟩ finalFingerprint)))
  fun rollbackError =>
    if rollbackError.isChangeLogReplayError then throw rollbackError
    else do
      let finalFingerprint ← getFinalFingerprint env parsed
      let world ← get
      throw (.rollbackFailed error rollbackError (createReplayResult parsed preview false
        world.appliedChangeCount ⟨true, some false, none, some startChangeCount⟩ finalFingerprint))

/-- The replay proper, once the preview found nothing against it. -/
def applyParsed (parsed : ParsedChangeLog) (preview : ChangeLogPreview) (startChangeCount : Nat) :
    Toolkit ApplyChangeLogResult := do
  modify fun world => { world with appliedChangeCount := 0 }
  tryCatch (replayChangeLog env parsed) (rollBackReplay env parsed preview startChangeCount)
  let world ← get
  let finalFingerprint ← getFinalFingerprint env parsed
  pure (createReplayResult parsed preview true world.appliedChangeCount
    ⟨false, none, none, some startChangeCount⟩ finalFingerprint)

def startingChangeCount (preview : ChangeLogPreview) : Toolkit Nat :=
  match preview.rollbackProtection with
  | some protection => pure protection.targetChangeCount
  | none => getChangeCount env

def applyChangeLog (request : ApplyChangeLogRequest) : Toolkit ApplyChangeLogResult := do
  let parsed ← MonadExcept.ofExcept (readChangeLogRequest env request)
  if request.dryRun then
    let preview ← createChangeLogPreview env parsed false
    pure (createReplayResult parsed preview false 0 ⟨false, none, none, none⟩ none)
  else
    ensureServerRunning env
    let preview ← createChangeLogPreview env parsed true
    let startChangeCount ← startingChangeCount env preview
    if !preview.canApply then
      throw (.replay .unsafeReplay (createReplayResult parsed preview false 0
        ⟨false, none, none, some startChangeCount⟩ preview.current))
    else applyParsed env parsed preview startChangeCount

end Requests

end OmegaEdit.Ai
