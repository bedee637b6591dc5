import OmegaEdit.Session

/-! Reading a model: the buffered read of a data segment, with its coalescing of
neighbouring file segments, the chunked copy into one buffer, the streaming
cursor, and the streaming of a whole model through a byte transform. `none` is
the code's `-1`. File reads that stay inside the file return the bytes written
to it. -/
namespace OmegaEdit

/-- `FSEEK` and `fread`; a short read is a failure for every caller. -/
def readSegmentFromFile (file : Option CheckpointFile) (offset byteCount : Int) :
    Except Fault (Option (List Byte)) :=
  match file with
  | none => .error .nullFile
  | some file =>
    let bytes := Splice.slice file.bytes offset.toNat byteCount.toNat
    .ok (if 0 ≤ offset ∧ (bytes.length : Int) = byteCount then some bytes else none)

/-- `std::upper_bound` and one step back: the segments from the last one that does not start
past `offset`, or all of them. -/
def segmentsFrom (offset : Int) : List ModelSegment → List ModelSegment
  | [] => []
  | [last] => [last]
  | first :: second :: rest =>
    if offset < second.computedOffset then first :: second :: rest
    else segmentsFrom offset (second :: rest)

/-- Extend a file read over the following segments while they continue it in the file. -/
def coalesce (fileOffset remainingCapacity : Int) :
    Int → List ModelSegment → Int × List ModelSegment
  | coalesced, [] => (coalesced, [])
  | coalesced, peek :: rest =>
    if coalesced < remainingCapacity ∧ peek.kind = .read ∧
        addOverflows fileOffset coalesced = false ∧ peek.changeOffset = fileOffset + coalesced then
      let peekAmount := min (remainingCapacity - coalesced) peek.computedLength
      if peekAmount = peek.computedLength then
        coalesce fileOffset remainingCapacity (coalesced + peekAmount) rest
      else (coalesced + peekAmount, peek :: rest)
    else (coalesced, peek :: rest)

/-- The loop over the segments; the fuel is their number. -/
def populateLoop (file : Option CheckpointFile) (capacity : Int) :
    Nat → Int → List Byte → List ModelSegment → Except Fault (Option (List Byte))
  | 0, _, buffer, _ => .ok (some buffer)
  | _ + 1, _, buffer, [] => .ok (some buffer)
  | fuel + 1, delta, buffer, segment :: rest =>
    let remainingCapacity := capacity - buffer.length
    let amount := min (segment.computedLength - delta) remainingCapacity
    match safeAdd segment.changeOffset delta with
    | none => .ok none
    | some sourceOffset =>
      match segment.kind with
      | .read => do
        let coalesced := coalesce sourceOffset remainingCapacity amount rest
        match ← readSegmentFromFile file sourceOffset coalesced.1 with
        | none => .ok none
        | some bytes =>
          if ((buffer ++ bytes).length : Int) < capacity then
            populateLoop file capacity fuel 0 (buffer ++ bytes) coalesced.2
          else .ok (some (buffer ++ bytes))
      | .insert =>
        match segment.change.copyPayloadBytes segment.payloadRole sourceOffset amount with
        | none => .ok none
        | some bytes =>
          if ((buffer ++ bytes).length : Int) < capacity then
            populateLoop file capacity fuel 0 (buffer ++ bytes) rest
          else .ok (some (buffer ++ bytes))

def populateDataSegment (model : Model) (offset offsetAdjustment capacity : Int) :
    Except Fault (Option (List Byte)) :=
  match model.modelSegments with
  | [] => .ok (some [])
  | segments =>
    match safeAdd offset offsetAdjustment with
    | none => .ok none
    | some dataOffset =>
      if dataOffset < 0 then .ok none
      else match segmentsFrom dataOffset segments with
        | [] => .ok none
        | first :: rest =>
          match safeAdd first.computedOffset first.computedLength with
          | none => .ok none
          | some segmentEnd =>
            if dataOffset < first.computedOffset ∨ dataOffset > segmentEnd then .ok none
            else populateLoop model.file capacity (rest.length + 1)
              (dataOffset - first.computedOffset) [] (first :: rest)

/-- `omega_session_get_segment` into a segment of the given capacity. -/
def getSegment (model : Model) (offset capacity : Int) : Except Fault (Option (List Byte)) :=
  if offset < 0 ∨ capacity < 0 then .ok none else populateDataSegment model offset 0 capacity

/-- The copy loop of `omega_edit_save_segment_to_bytes`; the fuel is the requested length. -/
def saveToBytesLoop (model : Model) (offset requestedLength chunkCapacity : Int) :
    Nat → List Byte → Except Fault (Option (List Byte))
  | 0, copied => .ok (if requestedLength ≤ copied.length then some copied else none)
  | fuel + 1, copied =>
    if requestedLength ≤ copied.length then .ok (some copied)
    else match safeAdd offset copied.length with
      | none => .ok none
      | some readOffset => do
        match ← populateDataSegment model readOffset 0 chunkCapacity with
        | none => .ok none
        | some bytes =>
          let part := bytes.take (requestedLength - copied.length).toNat
          if part.length = 0 then .ok none
          else saveToBytesLoop model offset requestedLength chunkCapacity fuel (copied ++ part)

def saveSegmentToBytes (model : Model) (offset length : Int) :
    Except Fault (Option (List Byte)) :=
  if offset < 0 ∨ length < 0 then .ok none
  else
    let computedFileSize := model.computedFileSize
    if computedFileSize < 0 ∨ offset > computedFileSize then .ok none
    else
      let remainingLength := computedFileSize - offset
      let requestedLength :=
        if length = 0 ∨ length > remainingLength then remainingLength else length
      if requestedLength > memoryBufferLimit then .ok none
      else if requestedLength = 0 then .ok (some [])
      else saveToBytesLoop model offset requestedLength (min requestedLength ioBufferSize)
        requestedLength.toNat []

structure StreamCursor where
  segments : List ModelSegment
  offset : Int

def skipBefore (offset : Int) : List ModelSegment → Option (List ModelSegment)
  | [] => some []
  | segment :: rest =>
    match safeAdd segment.computedOffset segment.computedLength with
    | none => none
    | some segmentEnd =>
      if segmentEnd > offset then some (segment :: rest) else skipBefore offset rest

def initializeSessionStreamCursor (model : Model) (offset : Int) : Option StreamCursor :=
  if offset < 0 then none
  else (skipBefore offset (segmentsFrom offset model.modelSegments)).map (⟨·, offset⟩)

/-- A read in chunks of `ioBufferSize`; the fuel is the number of bytes. -/
def copyChunks (read : Int → Int → Except Fault (Option (List Byte))) :
    Nat → Int → Int → Except Fault (Option (List Byte))
  | 0, _, remaining => .ok (if remaining ≤ 0 then some [] else none)
  | fuel + 1, offset, remaining =>
    if remaining ≤ 0 then .ok (some [])
    else do
      let count := min remaining ioBufferSize
      match ← read offset count with
      | none => .ok none
      | some bytes =>
        match ← copyChunks read fuel (offset + count) (remaining - count) with
        | none => .ok none
        | some rest => .ok (some (bytes ++ rest))

/-- `byteCount` bytes of a segment's source: the backing file or the payload of its change. -/
def readSource (file : Option CheckpointFile) (segment : ModelSegment) (offset byteCount : Int) :
    Except Fault (Option (List Byte)) :=
  match segment.kind with
  | .read => readSegmentFromFile file offset byteCount
  | .insert => .ok (segment.change.copyPayloadBytes segment.payloadRole offset byteCount)

/-- What a streamed range leaves: the cursor, the bytes written and how many were passed. -/
structure Streamed where
  cursor : StreamCursor
  written : List Byte
  processed : Int

def streamLoop (file : Option CheckpointFile) (endOffset : Int) (write : Bool) :
    Int → List ModelSegment → Except Fault (Option Streamed)
  | offset, [] => .ok (if offset < endOffset then none else some ⟨⟨[], offset⟩, [], 0⟩)
  | offset, segment :: rest =>
    if endOffset ≤ offset then .ok (some ⟨⟨segment :: rest, offset⟩, [], 0⟩)
    else match safeAdd segment.computedOffset segment.computedLength with
      | none => .ok none
      | some segmentEnd =>
        if segmentEnd ≤ offset then streamLoop file endOffset write offset rest
        else if segment.computedOffset > offset then .error .continuityBreak
        else do
          let segmentStart := max (offset - segment.computedOffset) 0
          let segmentLength := min (endOffset - offset) (segment.computedLength - segmentStart)
          let bytes ←
            if write then
              match safeAdd segment.changeOffset segmentStart with
              | none => .ok none
              | some sourceOffset =>
                copyChunks (readSource file segment) segmentLength.toNat sourceOffset segmentLength
            else .ok (some [])
          match bytes, safeAdd offset segmentLength, safeAdd segmentStart segmentLength with
          | some bytes, some nextOffset, some segmentConsumed =>
            if segmentConsumed ≥ segment.computedLength then
              match ← streamLoop file endOffset write nextOffset rest with
              | none => .ok none
              | some streamed =>
                .ok (some { streamed with
                  written := bytes ++ streamed.written
                  processed := segmentLength + streamed.processed })
            -- a segment that is not used up is where the range ends
            else .ok (some ⟨⟨segment :: rest, nextOffset⟩, bytes, segmentLength⟩)
          | _, _, _ => .ok none

def streamSessionRange (model : Model) (cursor : StreamCursor) (endOffset : Int) (write : Bool) :
    Except Fault (Option Streamed) :=
  if endOffset < cursor.offset then .ok none
  else streamLoop model.file endOffset write cursor.offset cursor.segments

/-- Stream `[offset, offset + length)` into a file; `none` unless exactly that many bytes pass. -/
def streamRange (model : Model) (offset length : Int) : Except Fault (Option (List Byte)) :=
  match safeAdd offset length, initializeSessionStreamCursor model offset with
  | some endOffset, some cursor => do
    match ← streamSessionRange model cursor endOffset true with
    | none => .ok none
    | some streamed => .ok (if streamed.processed = length then some streamed.written else none)
  | _, _ => .ok none

/-- What `omega_edit_save_segment_to_file` writes. -/
def saveSegmentToFile (model : Model) (offset length : Int) : Except Fault (Option (List Byte)) :=
  if offset < 0 ∨ length < 0 then .ok none
  else
    let computedFileSize := model.computedFileSize
    if computedFileSize < 0 ∨ offset > computedFileSize then .ok none
    else
      let adjustedLength :=
        if length ≤ 0 then computedFileSize - offset else min length (computedFileSize - offset)
      streamRange model offset adjustedLength

/-- What a stateful callback answers for a byte, given the bytes it was called on before, the
latest first. -/
abbrev ByteTransform := List Byte → Byte → Byte

def applyByteTransform (transform : ByteTransform) (seen : List Byte) :
    List Byte → List Byte × List Byte
  | [] => ([], seen)
  | byte :: rest =>
    let transformed := applyByteTransform transform (byte :: seen) rest
    (transform seen byte :: transformed.1, transformed.2)

/-- Transform the part of a buffer at file position `begin` that lies in the range. -/
def transformBuffer (transform : ByteTransform) (rangeBegin rangeEnd bufferBegin : Int)
    (seen buffer : List Byte) : List Byte × List Byte :=
  let count : Int := buffer.length
  if bufferBegin < rangeEnd ∧ bufferBegin + count > rangeBegin then
    let start := (max (rangeBegin - bufferBegin) 0).toNat
    let stop := (min (rangeEnd - bufferBegin) count).toNat
    let transformed := applyByteTransform transform seen (Splice.slice buffer start (stop - start))
    (buffer.take start ++ transformed.1 ++ buffer.drop stop, transformed.2)
  else (buffer, seen)

/-- The chunk loop of one segment; `position` is the file position written next. -/
def transformChunks (read : Int → Int → Except Fault (Option (List Byte)))
    (transform : ByteTransform) (rangeBegin rangeEnd : Int) :
    Nat → Int → Int → Int → List Byte → Except Fault (Option (List Byte × List Byte))
  | 0, _, _, remaining, seen => .ok (if remaining ≤ 0 then some ([], seen) else none)
  | fuel + 1, offset, position, remaining, seen =>
    if remaining ≤ 0 then .ok (some ([], seen))
    else do
      let count := min remaining ioBufferSize
      match ← read offset count, safeAdd position count with
      | some buffer, some nextPosition =>
        let transformed := transformBuffer transform rangeBegin rangeEnd position seen buffer
        match ← transformChunks read transform rangeBegin rangeEnd fuel (offset + count)
            nextPosition (remaining - count) transformed.2 with
        | none => .ok none
        | some rest => .ok (some (transformed.1 ++ rest.1, rest.2))
      | _, _ => .ok none

def transformSegments (file : Option CheckpointFile) (transform : ByteTransform)
    (rangeBegin rangeEnd : Int) :
    Int → List Byte → List ModelSegment → Except Fault (Option (List Byte × Int))
  | position, _, [] => .ok (some ([], position))
  | position, seen, segment :: rest =>
    if position ≠ segment.computedOffset then .error .continuityBreak
    else do
      match ← transformChunks (readSource file segment) transform rangeBegin rangeEnd
          segment.computedLength.toNat segment.changeOffset position segment.computedLength seen,
          safeAdd position segment.computedLength with
      | some transformed, some nextPosition =>
        match ← transformSegments file transform rangeBegin rangeEnd nextPosition transformed.2
            rest with
        | none => .ok none
        | some written => .ok (some (transformed.1 ++ written.1, written.2))
      | _, _ => .ok none

/-- The bytes `save_segment_transformed_` writes. -/
def saveSegmentTransformed (model : Model) (transform : ByteTransform)
    (transformOffset transformLength : Int) : Except Fault (Option (List Byte)) :=
  if transformOffset < 0 then .ok none
  else
    let computedFileSize := model.computedFileSize
    if computedFileSize < 0 then .ok none
    else
      let adjustedLength :=
        if transformLength ≤ 0 then computedFileSize - transformOffset
        else min transformLength (computedFileSize - transformOffset)
      if adjustedLength < 0 then .ok none
      else match safeAdd transformOffset adjustedLength with
        | none => .ok none
        | some transformEnd => do
          match ← transformSegments model.file transform transformOffset transformEnd 0 []
              model.modelSegments with
          | none => .ok none
          | some written =>
            .ok (if written.2 = computedFileSize then some written.1 else none)

end OmegaEdit
