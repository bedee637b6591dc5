import OmegaEdit.FlatChange
import OmegaEdit.Reads

/-! The read paths return slices of the denoted content: the buffered path with
its coalescing, the copy into one buffer, and the streaming cursor. -/
namespace OmegaEdit
open Splice
variable {file : Option CheckpointFile}
  {offset byteCount remaining capacity start endOffset length : Int}
  {segment : ModelSegment} {read : Int → Int → Except Fault (Option (List Byte))}
  {source : List Byte} {fuel : Nat} {rest segments : List ModelSegment}

/-- The bytes behind a file pointer. -/
def fileContent : Option CheckpointFile → List Byte
  | none => []
  | some file => file.bytes

lemma Model.fileBytes_eq (model : Model) : model.fileBytes = fileContent model.file := by
  unfold Model.fileBytes fileContent
  cases model.file <;> rfl

lemma readSegmentFromFile_eq (backed : file ≠ none) (reached : 0 ≤ offset) (nonneg : 0 ≤ byteCount)
    (inside : offset + byteCount ≤ (fileContent file).length) :
    readSegmentFromFile file offset byteCount =
      .ok (some (slice (fileContent file) offset.toNat byteCount.toNat)) := by
  cases file with
  | none => exact absurd rfl backed
  | some file =>
    simp only [fileContent] at inside
    have length := length_slice_of_le
      (by omega : offset.toNat + byteCount.toNat ≤ file.bytes.length)
    have whole : ((slice file.bytes offset.toNat byteCount.toNat).length : Int) =
        byteCount := by omega
    simp [readSegmentFromFile, fileContent, whole, reached]

lemma Change.copyPayloadBytes_eq {change : Change} {role : PayloadRole}
    (stored : (change.payload role).storage ≠ .none) (reached : 0 ≤ offset) (nonneg : 0 ≤ byteCount)
    (inside : offset + byteCount ≤ (change.payload role).bytes.length) :
    change.copyPayloadBytes role offset byteCount =
      some (slice (change.payload role).bytes offset.toNat byteCount.toNat) := by
  unfold Change.copyPayloadBytes
  rw [if_neg (by omega)]
  by_cases empty : byteCount = 0
  · simp [empty]
  · rw [if_neg empty]
    dsimp only
    rw [if_neg (by omega)]
    cases storage : (change.payload role).storage with
    | none => exact absurd storage stored
    | inline | fileBacked => rfl

lemma ModelSegment.InBounds.backed (bounds : segment.InBounds (fileContent file))
    (kind : segment.kind = .read) : file ≠ none := by
  rintro rfl
  have inside := bounds.inside
  have positive := bounds.positive
  have nonneg := bounds.changeOffset_nonneg
  simp [ModelSegment.source, kind, fileContent] at inside
  omega

lemma readSource_eq (bounds : segment.InBounds (fileContent file)) (reached : 0 ≤ offset)
    (nonneg : 0 ≤ byteCount)
    (inside : offset + byteCount ≤ (segment.source (fileContent file)).length) :
    readSource file segment offset byteCount =
      .ok (some (slice (segment.source (fileContent file)) offset.toNat byteCount.toNat)) := by
  cases kind : segment.kind with
  | read =>
    simp only [ModelSegment.source, kind] at inside ⊢
    simp only [readSource, kind]
    exact readSegmentFromFile_eq (bounds.backed kind) reached nonneg inside
  | insert =>
    simp only [ModelSegment.source, kind] at inside ⊢
    simp only [readSource, kind, Change.copyPayloadBytes_eq (bounds.stored kind) reached nonneg
      inside]

lemma copyChunks_eq
    (reads : ∀ offset count : Int, 0 ≤ offset → 0 ≤ count → offset + count ≤ source.length →
      read offset count = .ok (some (slice source offset.toNat count.toNat)))
    (enough : remaining.toNat ≤ fuel) (reached : 0 ≤ offset) (nonneg : 0 ≤ remaining)
    (inside : offset + remaining ≤ source.length) :
    copyChunks read fuel offset remaining =
      .ok (some (slice source offset.toNat remaining.toNat)) := by
  induction fuel generalizing offset remaining with
  | zero =>
    have none : remaining = 0 := by omega
    simp [copyChunks, none]
  | succ fuel ih =>
    rw [copyChunks]
    by_cases done : remaining ≤ 0
    · have none : remaining = 0 := by omega
      simp [none]
    · rw [if_neg done]
      have size : ioBufferSize = 65536 := rfl
      have chunk := reads offset (min remaining ioBufferSize) reached (by omega) (by omega)
      have rest : copyChunks read fuel (offset + min remaining ioBufferSize)
          (remaining - min remaining ioBufferSize) = _ :=
        ih (by omega) (by omega) (by omega) (by omega)
      simp only [chunk, rest, bind, Except.bind]
      have parts := slice_split source offset.toNat remaining.toNat
        (min remaining ioBufferSize).toNat (by omega)
      rw [parts]
      congr 4
      · omega
      · omega

lemma ModelSegment.InBounds.copied (bounds : segment.InBounds (fileContent file)) {skip amount : Int}
    (reached : 0 ≤ skip) (nonneg : 0 ≤ amount) (within : skip + amount ≤ segment.computedLength) :
    safeAdd segment.changeOffset skip = some (segment.changeOffset + skip) ∧
      copyChunks (readSource file segment) amount.toNat (segment.changeOffset + skip) amount =
        .ok (some (slice (segment.bytes (fileContent file)) skip.toNat amount.toNat)) := by
  have changeNonneg := bounds.changeOffset_nonneg
  have inside := bounds.inside
  have changeEnd := bounds.sized.changeEnd_le
  refine ⟨safeAdd_of_le reached (by omega), ?_⟩
  rw [copyChunks_eq (fun _ _ => readSource_eq bounds) (Nat.le_refl _) (by omega) nonneg (by omega),
    ModelSegment.bytes, slice_slice _ _ _ _ _ (by omega)]
  congr 3
  omega

/-- A range that begins in a segment: its part of the segment, and then of the segments behind it. -/
lemma ModelSegment.InBounds.slice_cons {file : List Byte} (bounds : segment.InBounds file)
    {skip count amount : Int} (reached : 0 ≤ skip) (within : skip ≤ segment.computedLength)
    (least : min count (segment.computedLength - skip) = amount) :
    slice (segmentBytes file (segment :: rest)) skip.toNat count.toNat =
      slice (segment.bytes file) skip.toNat amount.toNat ++
        slice (segmentBytes file rest) 0 (count - amount).toNat := by
  have length := bounds.length_bytes
  rw [segmentBytes_cons, slice_append _ _ _ (by omega), ← slice_clip (segment.bytes file)]
  congr 2
  · omega
  · omega

/-- Extending a file read does not change what the buffer gets. -/
lemma coalesce_spec {file : List Byte} {fileOffset coalesced : Int}
    (inBounds : ∀ segment ∈ rest, segment.InBounds file) (reached : 0 ≤ fileOffset)
    (nonneg : 0 ≤ coalesced) (fits : coalesced ≤ capacity)
    (inside : fileOffset + coalesced ≤ file.length) :
    let result := coalesce fileOffset capacity coalesced rest
    coalesced ≤ result.1 ∧ result.1 ≤ capacity ∧ fileOffset + result.1 ≤ file.length ∧
      result.2 <:+ rest ∧
      (slice file fileOffset.toNat result.1.toNat ++ segmentBytes file result.2).take
          capacity.toNat =
        (slice file fileOffset.toNat coalesced.toNat ++ segmentBytes file rest).take
          capacity.toNat := by
  induction rest generalizing coalesced with
  | nil => exact ⟨Int.le_refl _, fits, inside, List.suffix_refl _, rfl⟩
  | cons peek rest ih =>
    have bounds := inBounds peek (by simp)
    have restBounds : ∀ segment ∈ rest, segment.InBounds file :=
      fun segment mem => inBounds segment (by simp [mem])
    have positive := bounds.positive
    have peekInside := bounds.inside
    rw [coalesce]
    by_cases extends_ : coalesced < capacity ∧ peek.kind = .read ∧
        addOverflows fileOffset coalesced = false ∧ peek.changeOffset = fileOffset + coalesced
    · rw [if_pos extends_]
      obtain ⟨room, kind, _, continues⟩ := extends_
      have source : peek.source file = file := by simp [ModelSegment.source, kind]
      rw [source] at peekInside
      -- what the file holds right behind the read so far is what the segment denotes
      have extended : ∀ amount : Int, 0 ≤ amount →
          slice file fileOffset.toNat (coalesced + amount).toNat =
            slice file fileOffset.toNat coalesced.toNat ++
              slice file peek.changeOffset.toNat amount.toNat := by
        intro amount amountNonneg
        have parts := slice_split file fileOffset.toNat (coalesced + amount).toNat
          coalesced.toNat (by omega)
        rw [parts]
        congr 2
        · omega
        · omega
      have peekBytes : peek.bytes file =
          slice file peek.changeOffset.toNat peek.computedLength.toNat := by
        rw [ModelSegment.bytes, source]
      by_cases whole : min (capacity - coalesced) peek.computedLength = peek.computedLength
      · rw [if_pos whole, whole]
        have further : 0 ≤ coalesced + peek.computedLength := by omega
        obtain ⟨more, le, inFile, suffix, same⟩ := ih restBounds further (by omega) (by omega)
        refine ⟨by omega, le, inFile, suffix.trans (List.suffix_cons _ _), ?_⟩
        rw [same, extended _ (by omega), segmentBytes_cons, peekBytes, List.append_assoc]
      · rw [if_neg whole]
        have filled : min (capacity - coalesced) peek.computedLength = capacity - coalesced := by
          omega
        rw [filled]
        refine ⟨by omega, by omega, by omega, List.suffix_refl _, ?_⟩
        dsimp only
        rw [take_slice_append _ (by omega) (by omega), segmentBytes_cons, peekBytes,
          ← List.append_assoc, ← extended _ (by omega), take_slice_append _ (by omega) (by omega)]
    · rw [if_neg extends_]
      exact ⟨Int.le_refl _, fits, inside, List.suffix_refl _, rfl⟩

/-- The loop fills the buffer from the denoted bytes. -/
lemma populateLoop_eq {delta : Int} {buffer : List Byte}
    (inBounds : ∀ segment ∈ segments, segment.InBounds (fileContent file))
    (enough : segments.length ≤ fuel) (reached : 0 ≤ delta)
    (within : ∀ segment ∈ segments.head?, delta ≤ segment.computedLength)
    (room : (buffer.length : Int) ≤ capacity) :
    populateLoop file capacity fuel delta buffer segments =
      .ok (some (buffer ++ slice (segmentBytes (fileContent file) segments) delta.toNat
        (capacity - buffer.length).toNat)) := by
  induction fuel generalizing delta buffer segments with
  | zero => simp [populateLoop, List.eq_nil_of_length_eq_zero (Nat.le_zero.mp enough), slice]
  | succ fuel ih =>
    cases segments with
    | nil => simp [populateLoop, slice]
    | cons segment rest =>
      obtain ⟨bounds, restBounds⟩ := List.forall_mem_cons.mp inBounds
      replace within := within segment rfl
      have offsetNonneg := bounds.changeOffset_nonneg
      have inside := bounds.inside
      have sized := bounds.sized.changeEnd_le
      have sourceOffset : safeAdd segment.changeOffset delta = some (segment.changeOffset + delta) :=
        safeAdd_of_le reached (by omega)
      -- the rest of this segment, and then the segments behind it
      have remaining : (segmentBytes (fileContent file) (segment :: rest)).drop delta.toNat =
          slice (segment.source (fileContent file)) (segment.changeOffset + delta).toNat
              (segment.computedLength - delta).toNat ++ segmentBytes (fileContent file) rest := by
        have length := bounds.length_bytes
        rw [segmentBytes_cons, List.drop_append_of_le_length (by omega)]
        congr 1
        unfold ModelSegment.bytes slice
        rw [List.drop_take, List.drop_drop]
        congr 2
        · omega
        · omega
      rw [slice, remaining]
      clear remaining
      -- a read that leaves space goes on, and one that fills the buffer stops
      have finish : ∀ (bytes denoted : List Byte) (tail : List ModelSegment), tail <:+ rest →
          (bytes.length : Int) ≤ capacity - buffer.length →
          (bytes ++ segmentBytes (fileContent file) tail).take (capacity - buffer.length).toNat =
            denoted.take (capacity - buffer.length).toNat →
          (if ((buffer ++ bytes).length : Int) < capacity then
              populateLoop file capacity fuel 0 (buffer ++ bytes) tail
            else .ok (some (buffer ++ bytes))) =
            .ok (some (buffer ++ denoted.take (capacity - buffer.length).toNat)) := by
        intro bytes denoted tail suffix fits same
        rw [← same, List.take_append, List.take_of_length_le (by omega)]
        by_cases space : ((buffer ++ bytes).length : Int) < capacity
        · have shorter := suffix.length_le
          have tailBounds := fun other mem => restBounds other (suffix.subset mem)
          rw [if_pos space, ih tailBounds (by simp at enough; omega) (Int.le_refl 0)
            (fun head mem => Int.le_of_lt (tailBounds head (List.mem_of_mem_head? mem)).positive)
            (Int.le_of_lt space), List.append_assoc, List.length_append]
          have left : (capacity - (buffer.length + bytes.length : Nat)).toNat =
              (capacity - buffer.length).toNat - bytes.length := by omega
          rw [left]
          rfl
        · rw [if_neg space]
          simp only [List.length_append] at space
          have full : (capacity - buffer.length).toNat - bytes.length = 0 := by omega
          rw [full, List.take_zero, List.append_nil]
      have least : (min (segment.computedLength - delta) (capacity - buffer.length)).toNat =
          min (segment.computedLength - delta).toNat (capacity - buffer.length).toNat := by omega
      rw [populateLoop]
      simp only [sourceOffset]
      cases kind : segment.kind with
      | insert =>
        simp only [ModelSegment.source, kind] at inside ⊢
        have copied := Change.copyPayloadBytes_eq (bounds.stored kind)
          (by omega : 0 ≤ segment.changeOffset + delta)
          (by omega : 0 ≤ min (segment.computedLength - delta) (capacity - buffer.length))
          (by omega)
        simp only [copied]
        apply finish _ _ _ (List.suffix_refl _)
        · rw [length_slice_of_le (by omega)]
          omega
        · rw [least, take_slice_min _ _ (by omega)]
      | read =>
        simp only [ModelSegment.source, kind] at inside ⊢
        obtain ⟨atLeast, atMost, inFile, suffix, same⟩ := coalesce_spec restBounds
          (by omega : 0 ≤ segment.changeOffset + delta)
          (by omega : 0 ≤ min (segment.computedLength - delta) (capacity - buffer.length))
          (Int.min_le_right _ _) (by omega)
        have read := readSegmentFromFile_eq (bounds.backed kind)
          (by omega : 0 ≤ segment.changeOffset + delta) (by omega) inFile
        simp only [read, bind, Except.bind]
        apply finish _ _ _ suffix
        · rw [length_slice_of_le (by omega)]
          omega
        · rw [same, least, take_slice_min _ _ (by omega)]

/-- The binary search finds the segment around an offset. -/
lemma segmentsFrom_spec (contiguous : Contiguous start segments) (nonempty : segments ≠ [])
    (reached : start ≤ offset) (inside : offset ≤ start + totalLength segments) :
    ∃ front segment rest, segments = front ++ segment :: rest ∧
      segmentsFrom offset segments = segment :: rest ∧
      segment.computedOffset = start + totalLength front ∧ segment.computedOffset ≤ offset ∧
      offset ≤ segment.computedOffset + segment.computedLength := by
  induction segments generalizing start with
  | nil => exact absurd rfl nonempty
  | cons first tail ih =>
    obtain ⟨atStart, tailContiguous⟩ := contiguous
    cases tail with
    | nil =>
      simp only [totalLength_cons, totalLength_nil] at inside
      exact ⟨[], first, [], rfl, rfl, by simp [atStart], by omega, by omega⟩
    | cons second rest =>
      rw [segmentsFrom]
      have atSecond := tailContiguous.1
      by_cases here : offset < second.computedOffset
      · rw [if_pos here]
        exact ⟨[], first, second :: rest, rfl, rfl, by simp [atStart], by omega, by omega⟩
      · rw [if_neg here]
        rw [totalLength_cons] at inside
        obtain ⟨front, segment, behind, split, found, at_, le, ge⟩ := ih tailContiguous (by simp)
          (by omega) (by omega)
        refine ⟨first :: front, segment, behind, by rw [split]; rfl, found, ?_, le, ge⟩
        rw [at_, totalLength_cons]
        omega

/-- Dropping up to a point of a segment drops the segments before it. -/
lemma drop_segmentBytes {file : List Byte} {front : List ModelSegment} (segment : ModelSegment)
    (rest : List ModelSegment) (frontBounds : ∀ other ∈ front, other.InBounds file)
    (reached : totalLength front ≤ offset) :
    (segmentBytes file (front ++ segment :: rest)).drop offset.toNat =
      (segmentBytes file (segment :: rest)).drop (offset - totalLength front).toNat := by
  have length := length_segmentBytes frontBounds
  have split : offset.toNat =
      (segmentBytes file front).length + (offset - totalLength front).toNat := by omega
  rw [segmentBytes_append, split, List.drop_append, List.drop_of_length_le (by omega),
    Nat.add_sub_cancel_left, List.nil_append]

/-- The cursor starts at a segment that does not begin past the offset. -/
lemma skipBefore_spec (contiguous : Contiguous start segments)
    (sized : ∀ segment ∈ segments, segment.Sized) (reached : start ≤ offset)
    (small : start + totalLength segments ≤ int64Max) :
    ∃ front tail, segments = front ++ tail ∧ skipBefore offset segments = some tail ∧
      start + totalLength front ≤ offset := by
  induction segments generalizing start with
  | nil => exact ⟨[], [], rfl, rfl, by simpa using reached⟩
  | cons segment rest ih =>
    obtain ⟨atStart, restContiguous⟩ := contiguous
    obtain ⟨segmentSized, restSized⟩ := List.forall_mem_cons.mp sized
    have positive := segmentSized.positive
    have restNonneg := totalLength_nonneg restSized
    rw [totalLength_cons] at small
    have segmentEnd := segmentEnd_eq atStart positive (by omega)
    rw [skipBefore, segmentEnd]
    dsimp only
    by_cases here : start + segment.computedLength > offset
    · rw [if_pos here]
      exact ⟨[], segment :: rest, rfl, rfl, by simpa using reached⟩
    · rw [if_neg here]
      obtain ⟨front, tail, split, skipped, le⟩ := ih restContiguous restSized (by omega) (by omega)
      refine ⟨segment :: front, tail, by rw [split]; rfl, skipped, ?_⟩
      rw [totalLength_cons]
      omega

/-- The stream writes the slice between the cursor and the end, or passes over it, and leaves the
cursor at the end. -/
lemma streamLoop_eq (write : Bool) (contiguous : Contiguous start segments)
    (inBounds : ∀ segment ∈ segments, segment.InBounds (fileContent file)) (nonneg : 0 ≤ start)
    (reached : start ≤ offset) (forward : offset ≤ endOffset)
    (inside : endOffset ≤ start + totalLength segments)
    (small : start + totalLength segments ≤ int64Max) :
    ∃ passed tail, segments = passed ++ tail ∧ start + totalLength passed ≤ endOffset ∧
      streamLoop file endOffset write offset segments = .ok (some ⟨⟨tail, endOffset⟩, if write then
          slice (segmentBytes (fileContent file) segments) (offset - start).toNat
            (endOffset - offset).toNat else [], endOffset - offset⟩) := by
  induction segments generalizing start offset with
  | nil =>
    simp only [totalLength_nil] at inside
    have same : endOffset = offset := by omega
    subst same
    exact ⟨[], [], rfl, by simpa using reached, by simp [streamLoop]⟩
  | cons segment rest ih =>
    obtain ⟨atStart, restContiguous⟩ := contiguous
    obtain ⟨bounds, restBounds⟩ := List.forall_mem_cons.mp inBounds
    have positive := bounds.positive
    have length := bounds.length_bytes
    have restNonneg := totalLength_nonneg (sized_of_inBounds restBounds)
    rw [totalLength_cons] at small inside
    have segmentEnd := segmentEnd_eq atStart positive (by omega)
    rw [streamLoop]
    by_cases done : endOffset ≤ offset
    · have same : endOffset = offset := by omega
      subst same
      exact ⟨[], segment :: rest, rfl, by simpa using reached, by simp⟩
    rw [if_neg done, segmentEnd]
    dsimp only
    by_cases behind : start + segment.computedLength ≤ offset
    · rw [if_pos behind]
      obtain ⟨passed, tail, split, le, streamed⟩ := ih restContiguous restBounds (by omega) behind
        forward (by omega) (by omega)
      refine ⟨segment :: passed, tail, by rw [split]; rfl, by rw [totalLength_cons]; omega, ?_⟩
      rw [streamed]
      have skip : (offset - start).toNat = (segment.bytes (fileContent file)).length +
          (offset - (start + segment.computedLength)).toNat := by omega
      rw [segmentBytes_cons, skip, slice_append_right]
    · rw [if_neg behind, if_neg (by omega)]
      have segmentStart : max (offset - segment.computedOffset) 0 = offset - start := by omega
      rw [segmentStart]
      generalize amount : min (endOffset - offset) (segment.computedLength - (offset - start)) =
        segmentLength
      obtain ⟨sourceOffset, copied⟩ := bounds.copied (by omega : 0 ≤ offset - start)
        (by omega : 0 ≤ segmentLength) (by omega)
      have nextOffset : safeAdd offset segmentLength = some (offset + segmentLength) :=
        safeAdd_of_le (by omega) (by omega)
      have consumed : safeAdd (offset - start) segmentLength =
          some (offset - start + segmentLength) := safeAdd_of_le (by omega) (by omega)
      rw [bounds.slice_cons (by omega) (by omega) (by omega : _ = segmentLength)]
      by_cases used : offset - start + segmentLength ≥ segment.computedLength
      · obtain ⟨passed, tail, split, le, streamed⟩ := ih restContiguous restBounds (by omega)
          (by omega : start + segment.computedLength ≤ offset + segmentLength) (by omega) (by omega)
          (by omega)
        refine ⟨segment :: passed, tail, by rw [split]; rfl, by rw [totalLength_cons]; omega, ?_⟩
        have here : (offset + segmentLength - (start + segment.computedLength)).toNat = 0 := by omega
        rw [here, ← Int.sub_sub] at streamed
        have processed : segmentLength + (endOffset - offset - segmentLength) = endOffset - offset := by
          omega
        cases write <;>
          simp only [Bool.false_eq_true, if_false, if_true, sourceOffset, copied, nextOffset, consumed,
            bind, Except.bind] at streamed ⊢ <;> rw [if_pos used, streamed] <;>
          simp only [processed, List.append_nil]
      · have ends : segmentLength = endOffset - offset := by omega
        have final : offset + segmentLength = endOffset := by omega
        refine ⟨[], segment :: rest, rfl, by rw [totalLength_nil]; omega, ?_⟩
        cases write <;>
          simp only [Bool.false_eq_true, if_false, if_true, sourceOffset, copied, nextOffset, consumed,
            bind, Except.bind] <;> rw [if_neg used, final, ends]
        rw [Int.sub_self, Int.toNat_zero, slice_zero, List.append_nil]

/-- The cursor stands before a tail of the segments that begins at or before its offset. -/
def StreamCursor.Stands (model : Model) (cursor : StreamCursor) (offset : Int) : Prop :=
  cursor.offset = offset ∧
    ∃ front, model.modelSegments = front ++ cursor.segments ∧ totalLength front ≤ offset

/-- A count that is cut at the end of the content asks for the same slice. -/
lemma slice_min {content : List Byte} (length : Int) (reached : 0 ≤ offset)
    (inside : offset ≤ content.length) :
    slice content offset.toNat (min length (content.length - offset)).toNat =
      slice content offset.toNat length.toNat := by
  unfold slice
  by_cases fits : length ≤ content.length - offset
  · rw [Int.min_eq_left fits]
  · rw [Int.min_eq_right (by omega), List.take_of_length_le, List.take_of_length_le]
    · rw [List.length_drop]
      omega
    · rw [List.length_drop]
      omega

section Model
variable {model : Model} {content : List Byte}
  (denotes : Denotes model.fileBytes model.modelSegments content)

include denotes

/-- The layout over the bytes of the file. -/
lemma layout : WellFormed (fileContent model.file) model.modelSegments ∧
    totalLength model.modelSegments = content.length ∧
    segmentBytes (fileContent model.file) model.modelSegments = content := by
  rw [← Model.fileBytes_eq]
  exact ⟨denotes.wellFormed, denotes.totalLength_eq, denotes.bytes_eq⟩

lemma populateDataSegment_eq (reached : 0 ≤ offset) (inside : offset ≤ content.length)
    (room : 0 ≤ capacity) :
    populateDataSegment model offset 0 capacity =
      .ok (some (slice content offset.toNat capacity.toNat)) := by
  obtain ⟨wellFormed, total, bytes⟩ := layout denotes
  unfold populateDataSegment
  cases segments : model.modelSegments with
  | nil =>
    rw [segments] at bytes
    simp [← bytes, slice]
  | cons head tail =>
    rw [segments] at wellFormed total bytes
    have dataOffset : safeAdd offset 0 = some (offset + 0) :=
      safeAdd_of_le (Int.le_refl 0) (by have := wellFormed.small; omega)
    rw [Int.add_zero] at dataOffset
    obtain ⟨front, segment, rest, split, found, at_, le, ge⟩ := segmentsFrom_spec
      wellFormed.contiguous (by simp) reached (by omega)
    have inBounds := wellFormed.inBounds
    have small := wellFormed.small
    rw [split] at inBounds small bytes
    have segmentBounds := inBounds segment (by simp)
    have frontSized := totalLength_nonneg (sized_of_inBounds
      (fun other mem => inBounds other (by simp [mem])) : ∀ other ∈ front, other.Sized)
    have restSized := totalLength_nonneg (sized_of_inBounds
      (fun other mem => inBounds other (by simp [mem])) : ∀ other ∈ rest, other.Sized)
    simp only [totalLength_append, totalLength_cons] at small
    have segmentEnd := segmentEnd_eq rfl segmentBounds.positive (by omega)
    simp only [dataOffset, found, segmentEnd]
    rw [if_neg (by omega), if_neg (by omega)]
    have filled : populateLoop model.file capacity (rest.length + 1)
        (offset - segment.computedOffset) [] (segment :: rest) = _ :=
      populateLoop_eq (fun other mem => inBounds other (List.mem_append_right _ mem))
        (Nat.le_refl _) (by omega) (by simp; omega) (by simpa using room)
    rw [filled, ← bytes]
    have before := drop_segmentBytes segment rest
      (fun other mem => inBounds other (by simp [mem])) (by omega : totalLength front ≤ offset)
    unfold slice
    rw [before]
    simp only [List.nil_append, List.length_nil]
    congr 4
    · omega
    · omega

lemma computedFileSize_eq : model.computedFileSize = content.length := by
  obtain ⟨wellFormed, total, _⟩ := layout denotes
  unfold Model.computedFileSize
  rcases List.eq_nil_or_concat model.modelSegments with empty | ⟨front, last, split⟩
  · rw [empty] at total
    simpa [empty] using total
  · rw [List.concat_eq_append] at split
    have contiguous := wellFormed.contiguous
    have small := wellFormed.small
    rw [split] at contiguous small total
    obtain ⟨-, atEnd, -⟩ := contiguous_append.mp contiguous
    have positive := (wellFormed.inBounds last (by simp [split])).positive
    simp only [totalLength_append, totalLength_cons, totalLength_nil] at small total
    have lastEnd := segmentEnd_eq rfl positive (by omega)
    simp only [split, List.getLast?_concat, lastEnd, Option.getD_some]
    omega

omit denotes in
lemma Session.size_eq_length (session : Session)
    (denotes : Denotes session.top.fileBytes session.top.modelSegments content) :
    session.computedFileSize = content.length :=
  computedFileSize_eq denotes

lemma saveToBytesLoop_eq {requested chunk : Int} {count : Nat} (reached : 0 ≤ offset)
    (inside : offset + requested ≤ content.length) (positive : 0 < chunk)
    (short : (count : Int) ≤ requested) (enough : requested ≤ count + fuel) :
    saveToBytesLoop model offset requested chunk fuel (slice content offset.toNat count) =
      .ok (some (slice content offset.toNat requested.toNat)) := by
  have small := denotes.length_le
  induction fuel generalizing count with
  | zero =>
    have all : requested.toNat = count := by omega
    rw [saveToBytesLoop, length_slice_of_le (by omega), if_pos (by omega), all]
  | succ fuel ih =>
    rw [saveToBytesLoop, length_slice_of_le (by omega)]
    by_cases done : requested ≤ count
    · have all : requested.toNat = count := by omega
      rw [if_pos done, all]
    · rw [if_neg done]
      have readOffset : safeAdd offset count = some (offset + count) :=
        safeAdd_of_le (by omega) (by omega)
      have populated := populateDataSegment_eq denotes (by omega : 0 ≤ offset + count)
        (by omega) (Int.le_of_lt positive)
      simp only [readOffset, populated, bind, Except.bind]
      generalize amountEq : min (requested - count).toNat chunk.toNat = amount
      have part : (slice content (offset + count).toNat chunk.toNat).take
          (requested - count).toNat = slice content (offset + count).toNat amount := by
        rw [slice, List.take_take, amountEq, slice]
      have partLength := length_slice_of_le
        (by omega : (offset + count).toNat + amount ≤ content.length)
      have extended := slice_split content offset.toNat (count + amount) count (by omega)
      have next : offset.toNat + count = (offset + count).toNat := by omega
      rw [next, Nat.add_sub_cancel_left] at extended
      rw [part, if_neg (by omega), ← extended]
      exact ih (by omega) (by omega)

/-- A copy into memory takes a length of zero for the rest of the content. -/
lemma saveSegmentToBytes_clipped (reached : 0 ≤ offset) (nonneg : 0 ≤ length)
    (inside : offset ≤ content.length)
    (fits : min (if length = 0 then content.length - offset else length) (content.length - offset) ≤
      memoryBufferLimit) :
    saveSegmentToBytes model offset length = .ok (some (slice content offset.toNat
      (if length = 0 then content.length - offset else length).toNat)) := by
  rw [← slice_min _ reached inside]
  generalize requestedEq : min (if length = 0 then (content.length : Int) - offset else length)
    (content.length - offset) = requested at fits ⊢
  have size := computedFileSize_eq denotes
  have buffer : ioBufferSize = 65536 := rfl
  have clipped : (if length = 0 ∨ length > content.length - offset then
      (content.length : Int) - offset else length) = requested := by
    split at requestedEq <;> split <;> omega
  have bounds : 0 ≤ requested ∧ offset + requested ≤ content.length := by
    split at requestedEq <;> omega
  unfold saveSegmentToBytes
  rw [if_neg (by omega), size]
  dsimp only
  rw [if_neg (by omega), clipped, if_neg (by omega)]
  by_cases none : requested = 0
  · rw [if_pos none, none]
    simp [slice]
  · rw [if_neg none, ← slice_zero content offset.toNat]
    exact saveToBytesLoop_eq denotes reached bounds.2 (by omega) (by omega) (by omega)

lemma saveSegmentToBytes_eq (reached : 0 ≤ offset) (positive : 0 < length)
    (inside : offset + length ≤ content.length) (fits : length ≤ memoryBufferLimit) :
    saveSegmentToBytes model offset length =
      .ok (some (slice content offset.toNat length.toNat)) := by
  have requested : (if length = 0 then (content.length : Int) - offset else length) = length :=
    if_neg (by omega)
  have copied := saveSegmentToBytes_clipped denotes reached (Int.le_of_lt positive) (by omega)
    (by rw [requested]; omega)
  rwa [requested] at copied

/-- A cursor starts before a tail of the vector that begins at or before the offset. -/
lemma initializeSessionStreamCursor_stands (reached : 0 ≤ offset) (inside : offset ≤ content.length) :
    ∃ cursor, initializeSessionStreamCursor model offset = some cursor ∧
      cursor.Stands model offset := by
  obtain ⟨wellFormed, total, _⟩ := layout denotes
  unfold initializeSessionStreamCursor
  rw [if_neg (by omega)]
  cases segments : model.modelSegments with
  | nil => exact ⟨⟨[], offset⟩, rfl, rfl, [], segments, by simpa using reached⟩
  | cons head tail =>
    rw [segments] at wellFormed total
    obtain ⟨front, segment, rest, split, found, at_, le, ge⟩ := segmentsFrom_spec
      wellFormed.contiguous (by simp) reached (by omega)
    have contiguous := wellFormed.contiguous
    have sum := wellFormed.small
    rw [split] at contiguous sum
    simp only [totalLength_append] at sum
    have tailSized : ∀ other ∈ segment :: rest, other.Sized := by
      intro other mem
      refine (wellFormed.inBounds other ?_).sized
      rw [split]
      exact List.mem_append_right _ mem
    obtain ⟨skipped, kept, keptSplit, skip, keptLe⟩ := skipBefore_spec
      (contiguous_append.mp contiguous).2 tailSized (by omega : 0 + totalLength front ≤ offset)
      (by omega)
    refine ⟨⟨kept, offset⟩, ?_, rfl, front ++ skipped, ?_, ?_⟩
    · rw [found, skip]
      rfl
    · rw [segments, split, keptSplit, List.append_assoc]
    · rw [totalLength_append]
      omega

lemma streamSessionRange_eq {cursor : StreamCursor} (stands : cursor.Stands model offset)
    (reached : 0 ≤ offset) (forward : offset ≤ endOffset) (inside : endOffset ≤ content.length)
    (write : Bool) :
    ∃ after, streamSessionRange model cursor endOffset write = .ok (some ⟨after, if write then
        slice content offset.toNat (endOffset - offset).toNat else [], endOffset - offset⟩) ∧
      after.Stands model endOffset := by
  obtain ⟨rfl, front, split, frontLe⟩ := stands
  obtain ⟨wellFormed, total, bytes⟩ := layout denotes
  have small := wellFormed.small
  have contiguous := wellFormed.contiguous
  have inBounds := wellFormed.inBounds
  rw [split] at contiguous total small inBounds bytes
  simp only [totalLength_append] at total small
  have frontBounds : ∀ other ∈ front, other.InBounds (fileContent model.file) :=
    fun other mem => inBounds other (by simp [mem])
  have frontLength := length_segmentBytes frontBounds
  obtain ⟨passed, tail, tailSplit, le, streamed⟩ := streamLoop_eq write
    (contiguous_append.mp contiguous).2 (fun other mem => inBounds other (by simp [mem])) (by omega)
    (by omega : 0 + totalLength front ≤ cursor.offset) forward (by omega) (by omega)
  refine ⟨⟨tail, endOffset⟩, ?_, rfl, front ++ passed, ?_, ?_⟩
  · rw [streamSessionRange, if_neg (by omega), streamed]
    have skip : cursor.offset.toNat = (segmentBytes (fileContent model.file) front).length +
        (cursor.offset - (0 + totalLength front)).toNat := by omega
    rw [← bytes, segmentBytes_append, skip, slice_append_right]
  · rw [split, tailSplit, List.append_assoc]
  · rw [totalLength_append]
    omega

/-- Streaming a range writes the slice. -/
lemma streamRange_eq (reached : 0 ≤ offset) (nonneg : 0 ≤ length)
    (inside : offset + length ≤ content.length) :
    streamRange model offset length = .ok (some (slice content offset.toNat length.toNat)) := by
  have small := denotes.length_le
  have endOffset : safeAdd offset length = some (offset + length) :=
    safeAdd_of_le nonneg (by omega)
  obtain ⟨cursor, start, stands⟩ := initializeSessionStreamCursor_stands denotes reached
    (by omega : offset ≤ content.length)
  obtain ⟨after, streamed, _⟩ := streamSessionRange_eq denotes stands reached
    (by omega : offset ≤ offset + length) inside true
  have sameLength : offset + length - offset = length := by omega
  rw [sameLength] at streamed
  simp only [streamRange, endOffset, start, streamed, bind, Except.bind, if_true]

end Model

end OmegaEdit
