import OmegaEdit.ChangeLog.Protocol

/-! The server's side of an export: the frames it writes to its spool and streams
from there. A string of a frame is given as the text it encodes, so that its size
is the length of the text in UTF-8. -/
namespace OmegaEdit.ChangeLog
open Utf16
variable {context result : ExportContext} {index offset size : Nat} {payload : List Byte}
  {entry : PlanEntry} {entries : List PlanEntry} {algorithm : Text} {request : DigestRequest}

/-- A non-negative value of the code's signed 64-bit type. -/
abbrev Int64 := { value : Nat // value ≤ maxInt64 }

inductive PlanKind where
  | delete
  | insert
  | overwrite
  | replace
  | transform
deriving DecidableEq, Repr

/-- `omega_changelog_plan_entry_t`, with the bytes its payload reader gives. -/
structure PlanEntry where
  kind : PlanKind
  offset : Int64
  length : Int64
  payload : List Byte
  transformId : Text
  optionsJson : Text
  replacementLength : Int64
  computedFileSizeBefore : Int64
  computedFileSizeAfter : Int64
  /-- The planner gives transforms no payload. -/
  bare : kind = .transform → payload = []

structure ExportSummary where
  resolvedFirstChangeSerial : Int64
  resolvedLastChangeSerial : Int64
  sourceChangeCount : Int64
  beforeLength : Int64
  afterLength : Int64

/-- What a digest plugin answers: the characters of the digest and of its label. -/
structure DigestReply where
  resultBytes : Text
  resultLabel : Text

structure Digest where
  pluginId : Text
  algorithm : Text
  value : Text

def payloadChunkSize : Nat := 256 * 1024
def transformIdLimit : Nat := 4096
def transformOptionsLimit : Nat := 1024 * 1024
def digestPluginIdLimit : Nat := 4096
def digestAlgorithmLimit : Nat := 128
def digestValueLimit : Nat := 4096

/-- `sha256`. -/
def defaultFingerprintAlgorithm : Text := [115, 104, 97, 50, 53, 54]

/-- `std::tolower` in the C locale. -/
def toLower (unit : CodeUnit) : CodeUnit := if 65 ≤ unit && unit ≤ 90 then unit + 32 else unit

def digestPluginIdIsSafe (pluginId : Text) : Bool :=
  isSafeText isPluginIdUnit digestPluginIdLimit pluginId

def digestAlgorithmIsJsonSafe (algorithm : Text) : Bool :=
  isSafeText isAlgorithmUnit digestAlgorithmLimit algorithm

def digestValueIsSafe (digest : Text) : Bool :=
  isSafeText isHexUnit digestValueLimit digest

def normalizeDigestAlgorithm (algorithm : Text) : Text :=
  if algorithm.isEmpty then defaultFingerprintAlgorithm else algorithm.map toLower

def normalizeDigestValue (digest : Text) : Text := digest.map toLower

/-- `none` is the refusal of a label that is too long or not safe. -/
def normalizePluginDigestAlgorithm (label fallback : Text) : Option Text :=
  let algorithm := normalizeDigestAlgorithm (if label.isEmpty then fallback else label)
  if label.length > digestAlgorithmLimit then none
  else if digestAlgorithmIsJsonSafe algorithm then some algorithm
  else none

/-- The request's digest settings, checked before anything is exported. -/
structure DigestRequest where
  pluginId : Text
  algorithm : Text

def resolveDigestRequest (pluginId algorithm : Text) : Option DigestRequest :=
  if !digestPluginIdIsSafe pluginId then none
  else if !digestAlgorithmIsJsonSafe (normalizeDigestAlgorithm algorithm) then none
  else some ⟨pluginId, normalizeDigestAlgorithm algorithm⟩

def digestChangelogSource (request : DigestRequest) (reply : DigestReply) : Option Digest :=
  if reply.resultBytes.length = 0 ∨ reply.resultBytes.length > digestValueLimit then none
  else
    let value := normalizeDigestValue reply.resultBytes
    match normalizePluginDigestAlgorithm reply.resultLabel request.algorithm with
    | none => none
    | some algorithm =>
      if digestValueIsSafe value then some ⟨request.pluginId, algorithm, value⟩ else none

def Frame.dataLength : Frame → Nat
  | .payload chunk => chunk.data.length
  | _ => 0

/-- The serialisation of frames, of which only the size matters here: the length of
the frame with its prefix, which exceeds the payload it carries. -/
structure Encoding where
  frameLength : Frame → Nat
  carries : ∀ frame, frame.dataLength < frameLength frame

/-- `changelog_export_context` with its spool. -/
structure ExportContext where
  frames : List Frame := []
  bytesWritten : Nat := 0
  entryCount : Nat := 0
  payloadBytes : Nat := 0

section Spool
variable (encoding : Encoding) (byteLimit : Int64)

/-- `changelog_spool::write`. -/
def ExportContext.write (context : ExportContext) (frame : Frame) : Option ExportContext :=
  if context.bytesWritten + encoding.frameLength frame > byteLimit then none
  else some { context with
    frames := context.frames ++ [frame]
    bytesWritten := context.bytesWritten + encoding.frameLength frame }

def fingerprintOf (length : Nat) (digest : Digest) : Fingerprint :=
  ⟨Decimal.render length, digest.pluginId, digest.algorithm, digest.value⟩

def summaryHeader (optimized : Bool) (summary : ExportSummary) (before after : Digest) :
    StreamHeader where
  formatVersion := 3
  resolvedFirstSerialDecimal := Decimal.render summary.resolvedFirstChangeSerial
  resolvedLastSerialDecimal := Decimal.render summary.resolvedLastChangeSerial
  sourceChangeCountDecimal := Decimal.render summary.sourceChangeCount
  optimized := optimized
  before := some (fingerprintOf summary.beforeLength before)
  after := some (fingerprintOf summary.afterLength after)

def writeChangelogSummary (request : DigestRequest) (optimized : Bool) (summary : ExportSummary)
    (before after : DigestReply) (context : ExportContext) : Option ExportContext := do
  let beforeDigest ← digestChangelogSource request before
  let afterDigest ← digestChangelogSource request after
  context.write encoding byteLimit (.header (summaryHeader optimized summary beforeDigest afterDigest))

def changelogKind : PlanKind → Int
  | .delete => EntryKind.delete
  | .insert => EntryKind.insert
  | .overwrite => EntryKind.overwrite
  | .replace => EntryKind.replace
  | .transform => EntryKind.transform

def entryFrame (entry : PlanEntry) (index : Nat) : EntryHeader where
  entryIndexDecimal := Decimal.render index
  kind := changelogKind entry.kind
  offsetDecimal := Decimal.render entry.offset
  lengthDecimal := Decimal.render entry.length
  payloadLengthDecimal := Decimal.render entry.payload.length
  transform := if entry.kind = .transform then some {
      transformId := entry.transformId
      optionsJson := entry.optionsJson
      replacementLengthDecimal := Decimal.render entry.replacementLength
      computedFileSizeBeforeDecimal := Decimal.render entry.computedFileSizeBefore
      computedFileSizeAfterDecimal := Decimal.render entry.computedFileSizeAfter }
    else none

/-- The chunk of a payload that is read at an offset. -/
def chunkAt (index offset : Nat) (payload : List Byte) : PayloadChunk :=
  let data := (payload.drop offset).take (min (payload.length - offset) payloadChunkSize)
  { entryIndexDecimal := Decimal.render index
    chunkOffsetDecimal := Decimal.render offset
    data := data
    finalChunk := decide (offset + data.length = payload.length) }

/-- The payload loop. Every turn reads at least one byte, so the length of the payload is
enough fuel. -/
def writePayload (payload : List Byte) : Nat → Nat → ExportContext → Option ExportContext
  | 0, _, context => some context
  | fuel + 1, offset, context =>
    if offset < payload.length then do
      let chunk := chunkAt context.entryCount offset payload
      let written ← context.write encoding byteLimit (.payload chunk)
      writePayload payload fuel (offset + chunk.data.length)
        { written with payloadBytes := written.payloadBytes + chunk.data.length }
    else some context

def writeChangelogEntry (entry : PlanEntry) (context : ExportContext) : Option ExportContext := do
  if entry.kind = .transform ∧ (utf8Length entry.transformId > transformIdLimit ∨
      utf8Length entry.optionsJson > transformOptionsLimit) then none
  else
    let written ← context.write encoding byteLimit (.entry (entryFrame entry context.entryCount))
    let context ← writePayload encoding byteLimit entry.payload entry.payload.length 0 written
    some { context with entryCount := context.entryCount + 1 }

def completeFrame (context : ExportContext) : StreamComplete :=
  ⟨Decimal.render context.entryCount, Decimal.render context.payloadBytes⟩

/-- `ExportChangeLog`: the summary, the entries and the completion, in the order the exporter
calls back. `none` is any refusal, after which nothing is streamed. -/
def exportChangeLog (request : DigestRequest) (optimized : Bool) (summary : ExportSummary)
    (before after : DigestReply) (entries : List PlanEntry) : Option (List Frame) := do
  let headed ← writeChangelogSummary encoding byteLimit request optimized summary before after {}
  let written ← entries.foldlM (fun context entry => writeChangelogEntry encoding byteLimit entry context)
    headed
  let completed ← written.write encoding byteLimit (.complete (completeFrame written))
  some completed.frames

/-- The spool has room for what is counted in it. -/
structure ExportContext.Sized (context : ExportContext) : Prop where
  counted : context.entryCount + context.payloadBytes ≤ context.bytesWritten
  within : context.bytesWritten ≤ byteLimit

variable {encoding byteLimit}

lemma ExportContext.write_eq_some {frame : Frame}
    (written : context.write encoding byteLimit frame = some result) :
    result = { context with
      frames := context.frames ++ [frame]
      bytesWritten := context.bytesWritten + encoding.frameLength frame } ∧
      context.bytesWritten + encoding.frameLength frame ≤ byteLimit := by
  unfold ExportContext.write at written
  split at written
  · cases written
  · rename_i fits
    exact ⟨(Option.some.inj written).symm, not_lt.mp fits⟩

lemma denotes_render {value : Nat} (bounded : value ≤ maxInt64) : Denotes (Decimal.render value) value :=
  ⟨rfl, bounded⟩

lemma isInt64_render (value : Int64) : IsInt64 (Decimal.render value) :=
  ⟨value, denotes_render value.2⟩

lemma length_chunkAt (index offset : Nat) (payload : List Byte) :
    (chunkAt index offset payload).data.length = min (payload.length - offset) payloadChunkSize := by
  simp only [chunkAt, List.length_take, List.length_drop]
  omega

lemma chunkAt_at (inside : offset < payload.length) (indexBound : index ≤ maxInt64)
    (offsetBound : offset ≤ maxInt64) :
    (chunkAt index offset payload).At (some maxPayloadChunk) index offset where
  entryIndex := denotes_render indexBound
  chunkOffset := denotes_render offsetBound
  nonempty := by
    rw [length_chunkAt, payloadChunkSize]
    omega
  bounded := by
    rintro bound ⟨rfl⟩
    rw [length_chunkAt]
    exact min_le_right _ _

/-- What the payload loop writes from an offset on. -/
structure PayloadWritten (payload : List Byte) (offset : Nat) (context result : ExportContext)
    (chunks : List PayloadChunk) : Prop where
  frames : result.frames = context.frames ++ chunks.map .payload
  entryCount : result.entryCount = context.entryCount
  payloadBytes : result.payloadBytes = context.payloadBytes + (payload.length - offset)
  sized : result.Sized byteLimit
  room : result.entryCount + 1 + result.payloadBytes ≤ result.bytesWritten
  nothing : payload.length ≤ offset → chunks = []
  chunked : offset < payload.length →
    Chunks (some maxPayloadChunk) context.entryCount payload.length offset chunks

lemma writePayload_written {fuel : Nat}
    (written : writePayload encoding byteLimit payload fuel offset context = some result)
    (enough : payload.length ≤ offset + fuel) (already : offset ≤ context.payloadBytes)
    (room : context.entryCount + 1 + context.payloadBytes ≤ context.bytesWritten)
    (within : context.bytesWritten ≤ byteLimit) :
    ∃ chunks, @PayloadWritten byteLimit payload offset context result chunks := by
  induction fuel generalizing offset context with
  | zero =>
    obtain rfl := Option.some.inj written
    refine ⟨[], by simp, rfl, by omega, ⟨by omega, within⟩, room, fun _ => rfl, ?_⟩
    intro inside
    omega
  | succ fuel ih =>
    rw [writePayload] at written
    split at written
    · rename_i inside
      obtain ⟨spooled, wrote, rest⟩ := Option.bind_eq_some_iff.mp written
      obtain ⟨rfl, fits⟩ := ExportContext.write_eq_some wrote
      have carried := encoding.carries (.payload (chunkAt context.entryCount offset payload))
      simp only [Frame.dataLength] at carried
      have size := length_chunkAt context.entryCount offset payload
      simp only [payloadChunkSize] at size
      obtain ⟨chunks, after⟩ := ih rest (by omega) (by simp only; omega) (by simp only; omega) fits
      have here : (chunkAt context.entryCount offset payload).At (some maxPayloadChunk)
          context.entryCount offset := chunkAt_at inside (by omega) (by omega)
      refine ⟨chunkAt context.entryCount offset payload :: chunks, ?_, after.entryCount, ?_, after.sized,
        after.room, fun past => absurd inside (not_lt.mpr past), fun _ => ?_⟩
      · rw [after.frames]
        simp
      · rw [after.payloadBytes]
        simp only
        omega
      · by_cases atEnd : offset + (chunkAt context.entryCount offset payload).data.length = payload.length
        · obtain rfl := after.nothing (le_of_eq atEnd.symm)
          exact .last here (by simpa [chunkAt] using atEnd) atEnd
        · have below : offset + (chunkAt context.entryCount offset payload).data.length <
              payload.length := by omega
          exact .more here (by simpa [chunkAt] using atEnd) below (after.chunked below)
    · rename_i past
      obtain rfl := Option.some.inj written
      exact ⟨[], by simp, rfl, by omega, ⟨by omega, within⟩, room, fun _ => rfl,
        fun inside => absurd inside past⟩

/-- An entry within the limits gives a frame the client accepts. -/
lemma entryFrame_valid
    (small : ¬ (entry.kind = .transform ∧ (utf8Length entry.transformId > transformIdLimit ∨
      utf8Length entry.optionsJson > transformOptionsLimit))) (indexBound : index ≤ maxInt64)
    (payloadBound : entry.payload.length ≤ maxInt64) :
    (entryFrame entry index).Valid index entry.payload.length where
  entryIndex := denotes_render indexBound
  offset := isInt64_render _
  length := isInt64_render _
  payloadLength := denotes_render payloadBound
  known := by
    simp only [entryFrame]
    cases entry.kind <;> decide
  described := by
    by_cases isTransform : entry.kind = .transform
    · have described : (entryFrame entry index).kind = EntryKind.transform := by
        simp only [entryFrame, isTransform, changelogKind]
      simp only [isTransform, true_and, not_or, not_lt, gt_iff_lt] at small
      rw [EntryHeader.Described, if_pos described]
      refine ⟨by rw [entry.bare isTransform]; rfl, _, if_pos isTransform, ?_⟩
      exact ⟨small.1, small.2, isInt64_render _, isInt64_render _, isInt64_render _⟩
    · have described : (entryFrame entry index).kind ≠ EntryKind.transform := by
        simp only [entryFrame]
        cases kind : entry.kind with
        | transform => exact absurd kind isTransform
        | _ => decide
      rw [EntryHeader.Described, if_neg described]
      exact if_neg isTransform

/-- The frames put in front of any continuation of the protocol continue it. -/
structure Continues (context result : ExportContext) (frames : List Frame) : Prop where
  frames_eq : result.frames = context.frames ++ frames
  sized : result.Sized byteLimit
  continues : ∀ rest, Entries (some maxPayloadChunk) result.entryCount result.payloadBytes rest →
    Entries (some maxPayloadChunk) context.entryCount context.payloadBytes (frames ++ rest)

lemma writeChangelogEntry_continues
    (written : writeChangelogEntry encoding byteLimit entry context = some result)
    (sized : context.Sized byteLimit) :
    ∃ frames, @Continues byteLimit context result frames := by
  unfold writeChangelogEntry at written
  split at written
  · cases written
  · rename_i small
    obtain ⟨spooled, wrote, rest⟩ := Option.bind_eq_some_iff.mp written
    obtain ⟨rfl, fits⟩ := ExportContext.write_eq_some wrote
    obtain ⟨filled, wrotePayload, same⟩ := Option.bind_eq_some_iff.mp rest
    obtain rfl := Option.some.inj same
    have counted := sized.counted
    have positive := encoding.carries (.entry (entryFrame entry context.entryCount))
    obtain ⟨chunks, after⟩ := writePayload_written wrotePayload (by omega) (Nat.zero_le _)
      (by simp only; omega) fits
    have within := after.sized.within
    have room := after.room
    have bytes := after.payloadBytes
    have valid : (entryFrame entry context.entryCount).Valid context.entryCount entry.payload.length :=
      entryFrame_valid small (by omega) (by omega)
    refine ⟨.entry (entryFrame entry context.entryCount) :: chunks.map .payload, ?_,
      ⟨by simp only; omega, within⟩, ?_⟩
    · simp [after.frames]
    · intro others entries
      simp only [after.entryCount, bytes, Nat.sub_zero] at entries
      by_cases none : entry.payload.length = 0
      · obtain rfl := after.nothing (by omega)
        rw [none] at valid entries
        exact .bare valid entries
      · exact .carrying valid (Nat.pos_of_ne_zero none) (after.chunked (Nat.pos_of_ne_zero none)) entries

lemma writeChangelogEntries_continues
    (written : entries.foldlM (fun context entry => writeChangelogEntry encoding byteLimit entry context)
      context = some result) (sized : context.Sized byteLimit) :
    ∃ frames, @Continues byteLimit context result frames := by
  induction entries generalizing context with
  | nil =>
    obtain rfl := Option.some.inj written
    exact ⟨[], by simp, sized, fun rest entries => entries⟩
  | cons entry entries ih =>
    rw [List.foldlM_cons] at written
    obtain ⟨middle, first, others⟩ := Option.bind_eq_some_iff.mp written
    obtain ⟨frames, one⟩ := writeChangelogEntry_continues first sized
    obtain ⟨more, all⟩ := ih others one.sized
    refine ⟨frames ++ more, ?_, all.sized, ?_⟩
    · rw [all.frames_eq, one.frames_eq, List.append_assoc]
    · intro rest continued
      rw [List.append_assoc]
      exact one.continues _ (all.continues _ continued)

lemma normalizePluginDigestAlgorithm_safe {label fallback : Text}
    (normalized : normalizePluginDigestAlgorithm label fallback = some algorithm) :
    digestAlgorithmIsJsonSafe algorithm = true := by
  unfold normalizePluginDigestAlgorithm at normalized
  generalize normalizeDigestAlgorithm _ = candidate at normalized
  simp only at normalized
  split at normalized
  · cases normalized
  · split at normalized
    · rename_i candidateSafe
      obtain rfl := Option.some.inj normalized
      exact candidateSafe
    · cases normalized

lemma fingerprintOf_valid {reply : DigestReply} {digest : Digest} {length : Int64}
    (safe : digestPluginIdIsSafe request.pluginId = true)
    (digested : digestChangelogSource request reply = some digest) :
    (fingerprintOf length digest).Valid := by
  unfold digestChangelogSource at digested
  split at digested
  · cases digested
  · simp only at digested
    split at digested
    · cases digested
    · rename_i algorithm normalized
      split at digested
      · rename_i valueSafe
        obtain rfl := Option.some.inj digested
        exact ⟨isInt64_render _, safe, normalizePluginDigestAlgorithm_safe normalized, valueSafe⟩
      · cases digested

/-- Every sequence of frames the server spools is one of the protocol. -/
lemma exportChangeLog_protocol {optimized : Bool} {summary : ExportSummary}
    {before after : DigestReply} {frames : List Frame}
    (safe : digestPluginIdIsSafe request.pluginId = true)
    (exported : exportChangeLog encoding byteLimit request optimized summary before after entries =
      some frames) :
    Protocol (some maxPayloadChunk) frames := by
  obtain ⟨headed, summarized, rest⟩ := Option.bind_eq_some_iff.mp exported
  obtain ⟨written, all, ended⟩ := Option.bind_eq_some_iff.mp rest
  obtain ⟨completed, last, same⟩ := Option.bind_eq_some_iff.mp ended
  obtain rfl := Option.some.inj same
  obtain ⟨beforeDigest, digestedBefore, restSummary⟩ := Option.bind_eq_some_iff.mp summarized
  obtain ⟨afterDigest, digestedAfter, wrote⟩ := Option.bind_eq_some_iff.mp restSummary
  obtain ⟨rfl, fits⟩ := ExportContext.write_eq_some wrote
  obtain ⟨middle, continued⟩ := writeChangelogEntries_continues all ⟨Nat.zero_le _, fits⟩
  obtain ⟨rfl, -⟩ := ExportContext.write_eq_some last
  have counted := continued.sized.counted
  have within := continued.sized.within
  refine ⟨summaryHeader optimized summary beforeDigest afterDigest,
    middle ++ [.complete (completeFrame written)], ?_, ?_, ?_⟩
  · rw [continued.frames_eq]
    rfl
  · exact ⟨rfl, isInt64_render _, isInt64_render _, isInt64_render _,
      ⟨_, rfl, fingerprintOf_valid safe digestedBefore⟩, ⟨_, rfl, fingerprintOf_valid safe digestedAfter⟩⟩
  · exact continued.continues _ (.complete (denotes_render (by omega)) (denotes_render (by omega)))

lemma resolveDigestRequest_safe {pluginId : Text}
    (resolved : resolveDigestRequest pluginId algorithm = some request) :
    digestPluginIdIsSafe request.pluginId = true := by
  unfold resolveDigestRequest at resolved
  split at resolved
  · cases resolved
  · rename_i safe
    split at resolved
    · cases resolved
    · obtain rfl := Option.some.inj resolved
      simpa using safe

end Spool

/-- Under every schedule the consumer yields a prefix of what it was sent, sleeps only while the
stream owes it an event, and comes to an end once the stream has; it finishes normally on the
sequences of the protocol alone, and the server spools no others. -/
theorem streamChangeLogExport_accepts_exactly_protocol :
    (∀ schedule : List Event, let run := streamChangeLogExport schedule
      run.yielded <+: run.received ∧ (run.consumer.location = .waiting →
        run.consumer.queue = [] ∧ run.consumer.ended = false ∧ run.consumer.paused = false) ∧
      (run.Over → (run.consumer.location = .finished ↔
        run.errored = false ∧ Protocol (some maxPayloadChunk) run.received)) ∧
      (run.consumer.location = .finished → run.yielded = run.received) ∧
      (run.consumer.ended = true → ∃ count,
        let final := streamChangeLogExport (schedule ++ pulling count)
        final.Over ∧ final.received = run.received ∧ final.errored = run.errored)) ∧
    ∀ (encoding : Encoding) (byteLimit : Int64) (pluginId algorithm : Text) (request : DigestRequest)
      (optimized : Bool) (summary : ExportSummary) (before after : DigestReply)
      (entries : List PlanEntry) (frames : List Frame),
      resolveDigestRequest pluginId algorithm = some request →
      exportChangeLog encoding byteLimit request optimized summary before after entries = some frames →
      Protocol (some maxPayloadChunk) frames := by
  constructor
  · intro schedule
    have sound := streamChangeLogExport_sound schedule
    refine ⟨sound.yielded_prefix, sound.waiting, sound.finished_iff, sound.finished_all, ?_⟩
    intro ended
    obtain ⟨count, isOver, received, errored⟩ := sound.drained ended
    refine ⟨count, ?_⟩
    rw [streamChangeLogExport_append]
    exact ⟨isOver, received, errored⟩
  · intro encoding byteLimit pluginId algorithm request optimized summary before after entries frames
      resolved exported
    exact exportChangeLog_protocol (resolveDigestRequest_safe resolved) exported

/-- An insertion of two bytes. -/
def insertionEntry : PlanEntry :=
  ⟨.insert, ⟨7, by decide⟩, ⟨0, by decide⟩, [65, 66], [], [], ⟨0, by decide⟩, ⟨0, by decide⟩,
    ⟨0, by decide⟩, nofun⟩

/-- The transform `a` of one byte of a file of nine. -/
def transformEntry : PlanEntry :=
  ⟨.transform, ⟨0, by decide⟩, ⟨1, by decide⟩, [], ascii "a", [], ⟨1, by decide⟩, ⟨9, by decide⟩,
    ⟨9, by decide⟩, fun _ => rfl⟩

/-- What is spooled of the two. -/
def spooled (request : DigestRequest) : Option (List Frame) :=
  exportChangeLog ⟨fun frame => frame.dataLength + 100, fun _ => by omega⟩ ⟨1000, by decide⟩ request false
    ⟨⟨1, by decide⟩, ⟨2, by decide⟩, ⟨2, by decide⟩, ⟨7, by decide⟩, ⟨9, by decide⟩⟩
    ⟨ascii "0A", []⟩ ⟨ascii "0b", []⟩ [insertionEntry, transformEntry]

/-- The server resolves a digest request and spools an insertion and a transform, and the consumer
finishes on what it streams. -/
theorem streamChangeLogExport_accepts_spooled : ∃ request frames,
    resolveDigestRequest (ascii "plugin") (ascii "SHA256") = some request ∧
    spooled request = some frames ∧ frames.length = 5 ∧
    Protocol (some maxPayloadChunk) frames ∧
    (streamChangeLogExport (frames.map .data ++ [.close] ++ pulling 6)).consumer.location = .finished := by
  have shows : ((resolveDigestRequest (ascii "plugin") (ascii "SHA256")).bind spooled).map
      (fun frames => (frames.length, (streamChangeLogExport
        (frames.map .data ++ [.close] ++ pulling 6)).consumer.location)) = some (5, .finished) := by
    decide +kernel
  obtain ⟨frames, both, found⟩ := Option.map_eq_some_iff.mp shows
  obtain ⟨request, resolved, exported⟩ := Option.bind_eq_some_iff.mp both
  obtain ⟨counted, finished⟩ := Prod.mk.inj found
  exact ⟨request, frames, resolved, exported, counted,
    streamChangeLogExport_accepts_exactly_protocol.2 _ _ _ _ _ _ _ _ _ _ _ resolved exported, finished⟩

/-- An export of one insert whose payload comes in a single chunk. -/
def exportWithChunk (size : Nat) : List Frame :=
  let fingerprint : Fingerprint :=
    { byteLengthDecimal := [48], digestPluginId := [112], digestAlgorithm := [97], digestValue := [48] }
  [.header {
      formatVersion := 3
      resolvedFirstSerialDecimal := [49]
      resolvedLastSerialDecimal := [49]
      sourceChangeCountDecimal := [49]
      optimized := false
      before := some fingerprint
      after := some fingerprint }, .entry {
      entryIndexDecimal := [48]
      kind := EntryKind.insert
      offsetDecimal := [48]
      lengthDecimal := [48]
      payloadLengthDecimal := Decimal.render size
      transform := none }, .payload {
      entryIndexDecimal := [48]
      chunkOffsetDecimal := [48]
      data := List.replicate size 0
      finalChunk := true }, .complete {
      emittedChangeCountDecimal := [49]
      payloadByteCountDecimal := Decimal.render size }]

example : (streamChangeLogExport ((exportWithChunk 3).map .data ++ [.close] ++ pulling 5)).consumer.location =
    .finished := by decide

lemma exportWithChunk_protocol (positive : 0 < size) (bounded : size ≤ maxInt64) :
    Protocol none (exportWithChunk size) := by
  have zero : Denotes [48] 0 := ⟨by decide, by decide⟩
  have one : Denotes [49] 1 := ⟨by decide, by decide⟩
  refine ⟨_, _, rfl, ?_, ?_⟩
  · exact ⟨rfl, ⟨1, one⟩, ⟨1, one⟩, ⟨1, one⟩, ⟨_, rfl, ⟨0, zero⟩, by decide, by decide, by decide⟩,
      ⟨_, rfl, ⟨0, zero⟩, by decide, by decide, by decide⟩⟩
  · have payload : Chunks none 0 size 0 [⟨[48], [48], List.replicate size 0, true⟩] :=
      .last ⟨zero, zero, by simpa using positive, by simp⟩ rfl (by simp)
    have ending : Entries none 1 (0 + size) [.complete ⟨[49], Decimal.render size⟩] :=
      .complete one ⟨by rw [Nat.zero_add], by omega⟩
    refine Entries.carrying ?_ positive payload ending
    have known : EntryKind.delete ≤ EntryKind.insert ∧ EntryKind.insert ≤ EntryKind.transform := by decide
    exact ⟨zero, ⟨0, zero⟩, ⟨0, zero⟩, ⟨rfl, bounded⟩, known, rfl⟩

/-- A chunk over the client's limit is refused. -/
lemma exportWithChunk_not_protocol (large : maxPayloadChunk < size) :
    ¬ Protocol (some maxPayloadChunk) (exportWithChunk size) := by
  intro protocol
  obtain ⟨result, accepted, -⟩ := replay_complete_iff.mpr protocol
  obtain ⟨headed, first, accepted⟩ := replayFrom_cons.mp accepted
  obtain ⟨_, -, -, rfl⟩ := Progress.next_initial.mp first
  obtain ⟨opened, second, accepted⟩ := replayFrom_cons.mp accepted
  obtain ⟨filled, third, -⟩ := replayFrom_cons.mp accepted
  rcases Progress.next_reading.mp second with ⟨_, -, -, rfl⟩ | ⟨_, _, -, -, -, rfl⟩ | ⟨_, same, -⟩
  · rcases Progress.next_reading.mp third with ⟨_, same, -⟩ | ⟨_, _, same, -⟩ | ⟨_, same, -⟩
    · cases same
    · cases same
    · cases same
  · obtain ⟨chunk, same, here, -⟩ := Progress.next_inPayload.mp third
    obtain rfl := Frame.payload.inj same
    have bounded := here.bounded _ rfl
    rw [List.length_replicate] at bounded
    omega
  · cases same

/-- One chunk a byte over the limit, with nothing else out of order and no error. -/
theorem oversized_chunk_never_finishes :
    Protocol none (exportWithChunk 262145) ∧ ∀ count, (streamChangeLogExport
        ((exportWithChunk 262145).map .data ++ [.close] ++ pulling count)).consumer.location ≠ .finished := by
  constructor
  · exact exportWithChunk_protocol (by decide) (by decide)
  · intro count finished
    have sound := streamChangeLogExport_sound
      ((exportWithChunk 262145).map .data ++ [.close] ++ pulling count)
    have protocol := ((sound.finished_iff (.inl finished)).mp finished).2
    rw [streamChangeLogExport_received] at protocol
    exact exportWithChunk_not_protocol (by decide) protocol

end OmegaEdit.ChangeLog
