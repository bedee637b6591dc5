import OmegaEdit.SavedFiles

/-! What a reader of a session gets. The buffered read, the copy into memory, the
streaming cursor and the loop of a save walk the segments each in their own way;
on well-formed segments they read the same slice of the bytes the segments denote. -/
namespace OmegaEdit
open Splice

section Paths
variable {model : Model} {content : List Byte} (denotes : model.HasContent content)
  {offset length : Int} (reached : 0 ≤ offset) (inside : offset ≤ content.length)

include denotes reached inside

lemma getSegment_eq (room : 0 ≤ length) :
    getSegment model offset length = .ok (some (slice content offset.toNat length.toNat)) := by
  rw [getSegment, if_neg (by omega)]
  exact populateDataSegment_eq denotes reached inside room

end Paths

/-- Every way to read `length` bytes at `offset` gives the same slice of the segments' bytes. -/
theorem read_paths_agree {model : Model} (wellFormed : WellFormed model.fileBytes model.modelSegments)
    {offset length : Int} (reached : 0 ≤ offset) (inside : offset ≤ totalLength model.modelSegments)
    (nonneg : 0 ≤ length) :
    let content := segmentBytes model.fileBytes model.modelSegments
    let bytes := Splice.slice content offset.toNat length.toNat
    let available := totalLength model.modelSegments - offset
    let count := min length available
    let saved := if length = 0 then available else length
    getSegment model offset length = .ok (some bytes) ∧
    (min saved available ≤ memoryBufferLimit → saveSegmentToBytes model offset length =
      .ok (some (Splice.slice content offset.toNat saved.toNat))) ∧
    (∀ chunkCapacity, 0 < chunkCapacity →
      saveToBytesLoop model offset count chunkCapacity count.toNat [] = .ok (some bytes)) ∧
    (∃ cursor, initializeSessionStreamCursor model offset = some cursor ∧
      ∃ after, streamSessionRange model cursor (offset + count) true =
        .ok (some ⟨after, bytes, count⟩)) ∧
    saveLoop model.file none offset count 0 [] (segmentsFrom offset model.modelSegments) =
      .ok (.ok (bytes, count)) := by
  intro content bytes available count saved
  have denotes : model.HasContent content := ⟨wellFormed, rfl⟩
  have size : totalLength model.modelSegments = content.length := denotes.totalLength_eq
  have inContent : offset ≤ content.length := by omega
  have bytesEq : slice content offset.toNat count.toNat = bytes := by
    have := slice_min length reached inContent
    rwa [← size] at this
  have counted : 0 ≤ count ∧ offset + count ≤ content.length := by omega
  refine ⟨getSegment_eq denotes reached inContent nonneg, ?_, ?_, ?_, ?_⟩
  · intro fits
    have copied := saveSegmentToBytes_clipped denotes reached nonneg inContent
    rw [← size] at copied
    exact copied fits
  · intro chunkCapacity positive
    rw [← bytesEq, ← slice_zero content offset.toNat]
    exact saveToBytesLoop_eq denotes reached counted.2 positive (by omega) (by omega)
  · obtain ⟨cursor, started, stands⟩ :=
      initializeSessionStreamCursor_stands denotes reached inContent
    obtain ⟨after, streamed, _⟩ := streamSessionRange_eq denotes stands reached
      (by omega : offset ≤ offset + count) counted.2 true
    have passed : offset + count - offset = count := by omega
    rw [passed, if_pos rfl, bytesEq] at streamed
    exact ⟨cursor, started, after, streamed⟩
  · rcases saveLoop_segmentsFrom none denotes reached counted.1 counted.2 with
      ⟨unbounded, _⟩ | wrote
    · exact (unbounded rfl).elim
    · rwa [bytesEq] at wrote

/-- The bytes `omega`. -/
def omegaFile : OriginalFile := ⟨[111, 109, 101, 103, 97], by decide⟩

/-- Two insertions split the file, and the deletion of the second leaves two pieces that continue each
other in it. -/
def splittingEdits : List PrimitiveEdit :=
  [.insert 1 (some fun _ => 120) 1, .insert 3 (some fun _ => 122) 1, .delete 3 1]

/-- A read over all four segments, the last two of which the buffered read takes at once. -/
theorem read_paths_agree_inside : ∃ session,
    (createSession (some omegaFile) 0 0).runAnswers (splittingEdits.map PrimitiveEdit.call) =
      .ok (session, [1, 2, 3]) ∧
    session.top.modelSegments.map (fun segment => (segment.kind, segment.changeOffset,
      segment.computedLength)) = [(.read, 0, 1), (.insert, 0, 1), (.read, 1, 1), (.read, 2, 3)] ∧
    WellFormed session.top.fileBytes session.top.modelSegments ∧
    getSegment session.top 0 5 = .ok (some [111, 120, 109, 101, 103]) ∧
    saveSegmentToBytes session.top 0 5 = .ok (some [111, 120, 109, 101, 103]) ∧
    saveToBytesLoop session.top 0 5 2 5 [] = .ok (some [111, 120, 109, 101, 103]) ∧
    (∃ cursor, initializeSessionStreamCursor session.top 0 = some cursor ∧
      ∃ after, streamSessionRange session.top cursor 5 true =
        .ok (some ⟨after, [111, 120, 109, 101, 103], 5⟩)) ∧
    saveLoop session.top.file none 0 5 0 [] (segmentsFrom 0 session.top.modelSegments) =
      .ok (.ok ([111, 120, 109, 101, 103], 5)) := by
  obtain ⟨session, results, run, _, _, denotes⟩ :=
    runAnswers_refines splittingEdits (createSession_denotes (some omegaFile) 0 0)
  have shows : (match (createSession (some omegaFile) 0 0).runAnswers
      (splittingEdits.map PrimitiveEdit.call) with
    | .ok (session, results) => decide (results = [1, 2, 3] ∧
        session.top.modelSegments.map (fun segment => (segment.kind, segment.changeOffset,
          segment.computedLength)) = [(.read, 0, 1), (.insert, 0, 1), (.read, 1, 1), (.read, 2, 3)])
    | .error _ => false) = true := by decide +kernel
  rw [run] at shows
  obtain ⟨rfl, layout⟩ := of_decide_eq_true shows
  have content : segmentBytes session.top.fileBytes session.top.modelSegments =
      [111, 120, 109, 101, 103, 97] := denotes.bytes_eq.trans (by decide +kernel)
  have size : totalLength session.top.modelSegments = 6 := by
    rw [denotes.totalLength_eq, ← denotes.bytes_eq, content]
    rfl
  have agree := read_paths_agree denotes.wellFormed (by decide : (0 : Int) ≤ 0) (by rw [size]; decide)
    (by decide : (0 : Int) ≤ 5)
  simp only [content, size] at agree
  obtain ⟨segment, copied, chunked, streamed, looped⟩ := agree
  exact ⟨session, run, layout, denotes.wellFormed, segment, copied (by decide), chunked 2 (by decide),
    streamed, looped⟩

end OmegaEdit
