import OmegaEdit.LayoutEdits

/-! The abstract editor: a change is one splice of a flat byte list, and it fits
the content it was recorded on when its range lies there and its payloads hold
the inserted and the removed bytes. The segment loops refine this: on a well
formed vector they apply a fitting change, and take it back, exactly as the
splices do. A transform changes no bytes of the model it is recorded in; it fits
when its checkpoint file has the recorded size and carries undone changes that
fit that file. -/
namespace OmegaEdit
open Splice

namespace Change

/-- What a change does to flat content. -/
def apply (change : Change) (content : List Byte) : List Byte :=
  match change.kind with
  | .insert => Splice.splice content change.offset.toNat 0 change.data.bytes
  | .delete => Splice.splice content change.offset.toNat change.length.toNat []
  | .overwrite => Splice.splice content change.offset.toNat change.length.toNat change.data.bytes
  | .transform => content

/-- The range of a primitive change is a range of `int64_t` that begins inside `content`. -/
structure RangeFits (content : List Byte) (change : Change) : Prop where
  serial_ne : change.serial ≠ 0
  offset_nonneg : 0 ≤ change.offset
  offset_le : change.offset ≤ content.length
  positive : 0 < change.length
  end_le : change.offset + change.length ≤ int64Max

/-- The data of an insert or overwrite has the length of the change. -/
structure DataFits (change : Change) : Prop where
  length_data : (change.data.bytes.length : Int) = change.length
  stored : change.data.storage ≠ .none

/-- A primitive change recorded on `content`. -/
def PrimitiveFits (content : List Byte) (change : Change) : Prop :=
  change.RangeFits content ∧ match change.kind with
    | .insert => change.DataFits ∧ (content.length : Int) + change.length ≤ int64Max
    | .delete =>
      change.offset + change.length ≤ content.length ∧
        change.data.bytes = Splice.slice content change.offset.toNat change.length.toNat ∧
        change.data.storage ≠ .none
    | .overwrite =>
      change.DataFits ∧
        change.inverseData.bytes = Splice.slice content change.offset.toNat change.length.toNat ∧
        (change.inverseData.storage = .none → change.inverseData.bytes = [])
    | .transform => False

end Change

def replay (changes : List Change) (content : List Byte) : List Byte :=
  changes.foldl (fun content change => change.apply content) content

mutual

/-- A change recorded on `content`. -/
def Change.Fits (content : List Byte) : Change → Prop
  | ⟨serial, start, offset, length, data, inverseData, kind, bit, transformData, preserved⟩ =>
    match kind with
    | .transform =>
      match transformData with
      | none => False
      | some transformData =>
        serial ≠ 0 ∧
        transformData.computedFileSizeAfter = transformData.checkpointFile.bytes.length ∧
          transformData.computedFileSizeAfter ≤ int64Max ∧
          FitsAll transformData.checkpointFile.bytes preserved
    | kind =>
      Change.PrimitiveFits content
        ⟨serial, start, offset, length, data, inverseData, kind, bit, transformData, preserved⟩

/-- A change list recorded on `content`, one change after the other. -/
def FitsAll (content : List Byte) : List Change → Prop
  | [] => True
  | change :: rest => change.Fits content ∧ FitsAll (change.apply content) rest

end

@[simp] lemma replay_nil (content : List Byte) : replay [] content = content := rfl

@[simp] lemma replay_cons (change : Change) (rest : List Change) (content : List Byte) :
    replay (change :: rest) content = replay rest (change.apply content) := rfl

lemma replay_append (front back : List Change) (content : List Byte) :
    replay (front ++ back) content = replay back (replay front content) := by
  simp [replay]

@[simp] lemma fitsAll_nil (content : List Byte) : FitsAll content [] := by
  simp [FitsAll]

@[simp] lemma fitsAll_cons {content : List Byte} {change : Change} {rest : List Change} :
    FitsAll content (change :: rest) ↔
      change.Fits content ∧ FitsAll (change.apply content) rest := by
  rw [FitsAll]

lemma fitsAll_append {content : List Byte} {front back : List Change} :
    FitsAll content (front ++ back) ↔
      FitsAll content front ∧ FitsAll (replay front content) back := by
  induction front generalizing content with
  | nil => simp
  | cons change rest ih => simp [ih, and_assoc]

namespace Change

lemma fits_iff_of_ne {content : List Byte} {change : Change} (primitive : change.kind ≠ .transform) :
    change.Fits content ↔ change.PrimitiveFits content := by
  obtain ⟨serial, start, offset, length, data, inverseData, kind, bit, transformData, preserved⟩ :=
    change
  cases kind with
  | transform => exact absurd rfl primitive
  | delete | insert | overwrite => simp [Fits]

lemma fits_transform_iff {content : List Byte} {change : Change} (kind : change.kind = .transform) :
    change.Fits content ↔
      change.serial ≠ 0 ∧ ∃ transformData, change.transformData = some transformData ∧
        transformData.computedFileSizeAfter = transformData.checkpointFile.bytes.length ∧
        transformData.computedFileSizeAfter ≤ int64Max ∧
        FitsAll transformData.checkpointFile.bytes change.preservedChangesUndone := by
  obtain ⟨serial, start, offset, length, data, inverseData, kind', bit, transformData, preserved⟩ :=
    change
  cases kind
  cases transformData with
  | none | some transformData => simp [Fits]

@[simp] lemma apply_negate (change : Change) (content : List Byte) :
    change.negate.apply content = change.apply content := rfl

/-- Whether a change fits does not depend on its serial, nor on where its transaction starts. -/
lemma fits_relabel {content : List Byte} {change : Change} (serial start : Int)
    (zero : serial = 0 ↔ change.serial = 0) :
    ({ change with serial, transactionStartSerial := start } : Change).Fits content ↔
      change.Fits content := by
  generalize labelled : ({ change with serial, transactionStartSerial := start } : Change) = other
  have sameKind : other.kind = change.kind := by rw [← labelled]
  by_cases kind : change.kind = .transform
  · rw [fits_transform_iff kind, fits_transform_iff (sameKind.trans kind), ← labelled]
    simp [zero]
  · rw [fits_iff_of_ne kind, fits_iff_of_ne (by rw [sameKind]; exact kind), ← labelled]
    have range : ({ change with serial, transactionStartSerial := start } : Change).RangeFits content ↔
        change.RangeFits content := by
      constructor
      · rintro ⟨serial_ne, offset_nonneg, offset_le, positive, end_le⟩
        exact ⟨fun none => serial_ne (zero.mpr none), offset_nonneg, offset_le, positive, end_le⟩
      · rintro ⟨serial_ne, offset_nonneg, offset_le, positive, end_le⟩
        exact ⟨fun none => serial_ne (zero.mp none), offset_nonneg, offset_le, positive, end_le⟩
    have data : ({ change with serial, transactionStartSerial := start } : Change).DataFits ↔
        change.DataFits :=
      ⟨fun ⟨length, stored⟩ => ⟨length, stored⟩, fun ⟨length, stored⟩ => ⟨length, stored⟩⟩
    unfold PrimitiveFits
    rw [range, data]

lemma fits_negate {content : List Byte} {change : Change} :
    change.negate.Fits content ↔ change.Fits content :=
  fits_relabel (-change.serial) change.transactionStartSerial (by omega)

end Change

/-- A vector that denotes `content` and is well formed over `file`. -/
structure Denotes (file : List Byte) (segments : List ModelSegment) (content : List Byte) :
    Prop where
  wellFormed : WellFormed file segments
  bytes_eq : segmentBytes file segments = content

namespace Denotes
variable {file content : List Byte} {segments : List ModelSegment}

lemma totalLength_eq (denotes : Denotes file segments content) :
    totalLength segments = content.length := by
  rw [← denotes.bytes_eq, length_segmentBytes denotes.wellFormed.inBounds]

lemma length_le (denotes : Denotes file segments content) :
    (content.length : Int) ≤ int64Max := by
  rw [← denotes.totalLength_eq]
  exact denotes.wellFormed.small

lemma content_eq_nil (denotes : Denotes file [] content) : content = [] := by
  rw [← denotes.bytes_eq]
  rfl

/-- Putting a segment into the vector splices its bytes in. -/
lemma insert {inserted : ModelSegment} (denotes : Denotes file segments content)
    (nonempty : segments ≠ []) (reached : 0 ≤ inserted.computedOffset)
    (inside : inserted.computedOffset ≤ content.length) (bounds : inserted.InBounds file)
    (small : (content.length : Int) + inserted.computedLength ≤ int64Max) :
    ∃ edited,
      editAtOffset inserted.computedOffset (fun located => .ok (insertSegment inserted located)) 0
          segments = .ok (some edited) ∧ Denotes file edited
          (splice content inserted.computedOffset.toNat 0 (inserted.bytes file)) := by
  have wellFormed := denotes.wellFormed
  have sized := sized_of_inBounds wellFormed.inBounds
  have total := denotes.totalLength_eq
  obtain ⟨left, right, cut, leftEnd, edited⟩ := editAtOffset_insert inserted wellFormed.contiguous
    sized nonempty reached (by omega) bounds.positive (by omega)
  have sides := cut.contiguous wellFormed.contiguous
  have sidesBounds := cut.inBounds wellFormed.inBounds
  have leftLength := length_segmentBytes sidesBounds.1
  have frontLength : inserted.computedOffset.toNat = (segmentBytes file left).length := by omega
  refine ⟨_, edited, ⟨?_, ?_, ?_⟩, ?_⟩
  · refine contiguous_append.mpr ⟨sides.1, by omega, ?_⟩
    exact sides.2.shift inserted.computedLength
  · intro segment mem
    rcases List.mem_append.mp mem with mem | mem
    · exact sidesBounds.1 segment mem
    · rcases List.mem_cons.mp mem with rfl | mem
      · exact bounds
      · obtain ⟨original, originalMem, rfl⟩ := List.mem_map.mp mem
        exact (sidesBounds.2 original originalMem).shift _
  · have sum := cut.totalLength_eq
    simp only [totalLength_append, totalLength_cons, totalLength_shift]
    omega
  · rw [← denotes.bytes_eq, cut.segmentBytes_eq wellFormed.inBounds, frontLength,
      splice_append_left]
    simp

/-- Deleting a range of the vector splices its bytes out. -/
lemma delete {offset length : Int} (denotes : Denotes file segments content)
    (nonempty : segments ≠ []) (reached : 0 ≤ offset) (inside : offset ≤ content.length)
    (nonneg : 0 ≤ length) :
    ∃ edited,
      editAtOffset offset (fun located => .ok (deleteSegments length length located)) 0 segments =
          .ok (some edited) ∧
        Denotes file edited (splice content offset.toNat length.toNat []) := by
  have wellFormed := denotes.wellFormed
  have sized := sized_of_inBounds wellFormed.inBounds
  have total := denotes.totalLength_eq
  obtain ⟨left, rest, middle, right, cut, inner, leftEnd, erased, edited⟩ :=
    editAtOffset_delete wellFormed.contiguous sized nonempty reached (by omega) nonneg
      wellFormed.small
  have sides := cut.contiguous wellFormed.contiguous
  have sidesBounds := cut.inBounds wellFormed.inBounds
  have innerSides := inner.contiguous sides.2
  have innerBounds := inner.inBounds sidesBounds.2
  have leftLength := length_segmentBytes sidesBounds.1
  have middleLength := length_segmentBytes innerBounds.1
  have restLength := length_segmentBytes sidesBounds.2
  have sum := cut.totalLength_eq
  have innerSum := inner.totalLength_eq
  have frontLength : offset.toNat = (segmentBytes file left).length := by omega
  refine ⟨_, edited, ⟨?_, ?_, ?_⟩, ?_⟩
  · refine contiguous_append.mpr ⟨sides.1, ?_⟩
    -- a deletion past the end leaves nothing behind the cut to be moved
    rcases Int.le_total length (totalLength rest) with inRange | pastEnd
    · have moved := innerSides.2.shift (-length)
      have start : 0 + totalLength left + totalLength middle + -length = 0 + totalLength left := by
        omega
      rw [start] at moved
      exact moved
    · have empty : right = [] := by
        cases right with
        | nil => rfl
        | cons segment tail =>
          have positive := (innerBounds.2 segment (by simp)).positive
          have tailSized : ∀ other ∈ tail, other.Sized :=
            fun other mem => (innerBounds.2 other (by simp [mem])).sized
          have tailNonneg := totalLength_nonneg tailSized
          simp only [totalLength_cons] at innerSum
          omega
      rw [empty]
      trivial
  · intro segment mem
    rcases List.mem_append.mp mem with mem | mem
    · exact sidesBounds.1 segment mem
    · obtain ⟨original, originalMem, rfl⟩ := List.mem_map.mp mem
      exact (innerBounds.2 original originalMem).shift _
  · have small := wellFormed.small
    simp only [totalLength_append, totalLength_shift]
    omega
  · rw [← denotes.bytes_eq, cut.segmentBytes_eq wellFormed.inBounds, frontLength,
      ← splice_clip, splice_append_left]
    have dropped : (segmentBytes file rest).drop
        (min length.toNat ((segmentBytes file left ++ segmentBytes file rest).length -
          (segmentBytes file left).length)) = segmentBytes file right := by
      rw [inner.segmentBytes_eq sidesBounds.2]
      apply List.drop_left'
      simp only [List.length_append]
      rw [inner.segmentBytes_eq sidesBounds.2] at restLength
      simp only [List.length_append] at restLength
      omega
    rw [dropped]
    simp

lemma updateModelHelperInPlace_delRange {offset length : Int} (serial : Int) (bit : Bool)
    (denotes : Denotes file segments content) (reached : 0 ≤ offset)
    (inside : offset ≤ content.length) (nonneg : 0 ≤ length) :
    ∃ edited,
      updateModelHelperInPlace (delRange serial offset length bit) segments = .ok (some edited) ∧
        Denotes file edited (splice content offset.toNat length.toNat []) := by
  cases segments with
  | nil =>
    refine ⟨[], rfl, denotes.wellFormed, ?_⟩
    simp [denotes.content_eq_nil, splice]
  | cons segment rest => exact denotes.delete (by simp) reached inside nonneg

/-- Inserting a whole payload of a change, also into an empty vector. -/
lemma insertPayload {change : Change} (role : PayloadRole) {length : Int}
    (denotes : Denotes file segments content) (serial_ne : change.serial ≠ 0)
    (reached : 0 ≤ change.offset) (inside : change.offset ≤ content.length)
    (stored : (change.payload role).storage ≠ .none)
    (length_eq : ((change.payload role).bytes.length : Int) = length) (positive : 0 < length)
    (length_le : length ≤ change.length) (change_le : change.length ≤ int64Max)
    (small : (content.length : Int) + length ≤ int64Max) :
    let inserted : ModelSegment :=
      { computedOffset := change.offset, computedLength := length, changeOffset := 0, change,
        payloadRole := role }
    ∃ edited, (match segments with
        | [] => .ok (some [inserted])
        | segments => editAtOffset change.offset
            (fun located => .ok (insertSegment inserted located)) 0 segments) =
          (.ok (some edited) : SegmentsResult) ∧ Denotes file edited
          (splice content change.offset.toNat 0 (change.payload role).bytes) := by
  intro inserted
  have source : inserted.source file = (change.payload role).bytes := by
    simp [ModelSegment.source, ModelSegment.kind, inserted, serial_ne]
  have bytes : inserted.bytes file = (change.payload role).bytes := by
    have all : inserted.computedLength.toNat = (change.payload role).bytes.length := by
      show length.toNat = _
      omega
    rw [ModelSegment.bytes, source, all]
    exact slice_all _
  have bounds : inserted.InBounds file := by
    refine ⟨positive, Int.le_refl 0, ?_, ?_, change_le, fun _ => stored⟩
    · rw [source, length_eq]
      exact Int.le_of_eq (Int.zero_add length)
    · rw [source, length_eq]
      exact length_le
  rw [← bytes]
  cases segments with
  | nil =>
    obtain rfl := denotes.content_eq_nil
    have start : change.offset = 0 := by
      simp at inside
      omega
    refine ⟨[inserted], rfl, ⟨⟨start, trivial⟩, by simpa using bounds, by simpa using small⟩, ?_⟩
    simp [splice]
  | cons segment rest => exact denotes.insert (by simp) reached inside bounds small

lemma updateModelHelperInPlace_insert {change : Change} (denotes : Denotes file segments content)
    (insertion : change.kind = .insert ∨ change.kind = .overwrite)
    (range : change.RangeFits content) (data : change.DataFits)
    (small : (content.length : Int) + change.length ≤ int64Max) :
    ∃ edited, updateModelHelperInPlace change segments = .ok (some edited) ∧
      Denotes file edited (splice content change.offset.toNat 0 change.data.bytes) := by
  obtain ⟨edited, eq, denotesEdited⟩ := denotes.insertPayload .data range.serial_ne
    range.offset_nonneg range.offset_le data.stored data.length_data range.positive (Int.le_refl _)
    (by omega) small
  refine ⟨edited, ?_, denotesEdited⟩
  rw [← eq]
  cases segments with
  | nil => rcases insertion with kind | kind <;> simp [updateModelHelperInPlace, kind, changeSegment]
  | cons segment rest =>
    rcases insertion with kind | kind <;> simp [updateModelHelperInPlace, kind, changeSegment]

lemma deleteInserted {offset length : Int} {removed : Nat} {inserted : List Byte}
    (denotes : Denotes file segments (splice content offset.toNat removed inserted))
    (reached : 0 ≤ offset) (inside : offset ≤ content.length)
    (length_eq : (inserted.length : Int) = length) :
    ∃ edited, updateModelHelperInPlace (delRange 0 offset length false) segments =
        .ok (some edited) ∧ Denotes file edited (splice content offset.toNat removed []) := by
  have grown := length_splice removed inserted (by omega : offset.toNat ≤ content.length)
  have deleted := denotes.updateModelHelperInPlace_delRange 0 false reached (by omega)
    (by omega : 0 ≤ length)
  have all : length.toNat = inserted.length := by omega
  rwa [all, splice_splice _ _ _ (by omega)] at deleted

lemma insertRemoved {change : Change} (role : PayloadRole) (denotes : Denotes file segments
      (splice content change.offset.toNat change.length.toNat []))
    (range : change.RangeFits content)
    (payload : (change.payload role).bytes = slice content change.offset.toNat change.length.toNat)
    (stored : (change.payload role).storage = .none → (change.payload role).bytes = [])
    (small : (content.length : Int) ≤ int64Max) :
    ∃ edited, insertPayloadSegment change role change.offset (change.payloadLength role) segments =
        .ok (some edited) ∧ Denotes file edited content := by
  have nonneg := range.offset_nonneg
  have offsetLe := range.offset_le
  have endLe := range.end_le
  have payloadLength : change.payloadLength role = (change.payload role).bytes.length := by
    unfold Change.payloadLength
    split
    · next none => simp [stored none]
    · rfl
  have shorter := length_splice change.length.toNat ([] : List Byte)
    (by omega : change.offset.toNat ≤ content.length)
  rw [List.length_nil] at shorter
  have taken := length_slice content change.offset.toNat change.length.toNat
  have restored := splice_splice change.length.toNat ([] : List Byte)
    (change.payload role).bytes (by omega : change.offset.toNat ≤ content.length)
  rw [payload, splice_slice, ← payload, List.length_nil] at restored
  rw [← payload] at taken
  have valid : validNonnegativeRange change.offset (change.payload role).bytes.length = true :=
    validNonnegativeRange_iff.mpr ⟨nonneg, by omega, by omega⟩
  rw [payloadLength]
  by_cases empty : (change.payload role).bytes = []
  · refine ⟨segments, ?_, ?_⟩
    · rw [empty] at valid ⊢
      simp only [insertPayloadSegment, valid, Bool.true_eq_false, if_false]
      rfl
    · rw [empty] at restored
      rw [← restored]
      simpa [splice] using denotes
  · have positive : 0 < (change.payload role).bytes.length := List.length_pos_iff.mpr empty
    obtain ⟨edited, eq, denotesEdited⟩ := denotes.insertPayload role range.serial_ne nonneg
      (by omega) (fun none => empty (stored none)) rfl (by omega) (by omega) (by omega) (by omega)
    rw [restored] at denotesEdited
    refine ⟨edited, ?_, denotesEdited⟩
    rw [← eq]
    have nonzero : ¬((change.payload role).bytes.length : Int) = 0 := by omega
    cases segments with
    | nil =>
      have start : change.offset = 0 := by
        have := congrArg List.length denotes.content_eq_nil
        rw [List.length_nil] at this
        omega
      simp only [insertPayloadSegment, valid, Bool.true_eq_false, if_false, nonzero]
      simp [start]
    | cons segment rest =>
      simp only [insertPayloadSegment, valid, Bool.true_eq_false, if_false, nonzero]

lemma updateModel {change : Change} (denotes : Denotes file segments content)
    (fits : change.Fits content) :
    ∃ edited, OmegaEdit.updateModel change segments = .ok (some edited) ∧
      Denotes file edited (change.apply content) := by
  by_cases transform : change.kind = .transform
  · refine ⟨segments, by simp [OmegaEdit.updateModel, transform], ?_⟩
    simpa [Change.apply, transform] using denotes
  obtain ⟨range, byKind⟩ := (Change.fits_iff_of_ne transform).mp fits
  have nonneg := range.offset_nonneg
  have positive := range.positive
  have contentLe := denotes.length_le
  cases kind : change.kind with
  | transform => exact absurd kind transform
  | insert =>
    simp only [kind] at byKind
    simpa [OmegaEdit.updateModel, Change.apply, kind] using
      denotes.updateModelHelperInPlace_insert (.inl kind) range byKind.1 byKind.2
  | delete =>
    have deletes : OmegaEdit.updateModel change segments =
        updateModelHelperInPlace (delRange 0 change.offset change.length false) segments := by
      cases segments <;> simp [OmegaEdit.updateModel, updateModelHelperInPlace, delRange, kind]
    simpa [deletes, Change.apply, kind] using denotes.updateModelHelperInPlace_delRange 0 false
      range.offset_nonneg range.offset_le (Int.le_of_lt range.positive)
  | overwrite =>
    simp only [kind] at byKind
    obtain ⟨deleted, deletedEq, deletedDenotes⟩ := denotes.updateModelHelperInPlace_delRange 0 false
      range.offset_nonneg range.offset_le (Int.le_of_lt range.positive)
    have offsetLe := range.offset_le
    have endLe := range.end_le
    have shorter := length_splice change.length.toNat ([] : List Byte)
      (by omega : change.offset.toNat ≤ content.length)
    simp only [List.length_nil] at shorter
    have deletedRange :
        change.RangeFits (splice content change.offset.toNat change.length.toNat []) :=
      ⟨range.serial_ne, nonneg, by omega, positive, endLe⟩
    obtain ⟨edited, eq, editedDenotes⟩ := deletedDenotes.updateModelHelperInPlace_insert
      (.inr kind) deletedRange byKind.1 (by omega)
    refine ⟨edited, ?_, ?_⟩
    · simp only [OmegaEdit.updateModel, kind, deletedEq, bind, Except.bind]
      exact eq
    · rw [splice_delete_insert _ _ (by omega)] at editedDenotes
      simpa [Change.apply, kind] using editedDenotes

lemma undoChangeInModel {change : Change} (denotes : Denotes file segments (change.apply content))
    (fits : change.Fits content) (primitive : change.kind ≠ .transform)
    (small : (content.length : Int) ≤ int64Max) :
    ∃ edited, OmegaEdit.undoChangeInModel change segments = .ok (some edited) ∧
      Denotes file edited content := by
  obtain ⟨range, byKind⟩ := (Change.fits_iff_of_ne primitive).mp fits
  have nonneg := range.offset_nonneg
  have payloadLength : change.DataFits → change.payloadLength .data = change.length := by
    intro data
    simp [Change.payloadLength, Change.payload, data.stored, data.length_data]
  cases kind : change.kind with
  | transform => exact absurd kind primitive
  | insert =>
    simp only [kind] at byKind
    simp only [Change.apply, kind] at denotes
    have deleted := denotes.deleteInserted nonneg range.offset_le byKind.1.length_data
    simpa [OmegaEdit.undoChangeInModel, kind, payloadLength byKind.1, splice] using deleted
  | delete =>
    simp only [kind] at byKind
    obtain ⟨insideRange, dataEq, stored⟩ := byKind
    have length : (change.data.bytes.length : Int) = change.length := by
      have positive := range.positive
      rw [dataEq, length_slice_of_le (by omega)]
      omega
    simp only [Change.apply, kind] at denotes
    have restored := denotes.insertRemoved .data range dataEq (fun none => absurd none stored) small
    simpa [OmegaEdit.undoChangeInModel, kind, payloadLength ⟨length, stored⟩] using restored
  | overwrite =>
    simp only [kind] at byKind
    obtain ⟨data, inverseEq, inverseStored⟩ := byKind
    simp only [Change.apply, kind] at denotes
    obtain ⟨deleted, deletedEq, deletedDenotes⟩ :=
      denotes.deleteInserted nonneg range.offset_le data.length_data
    obtain ⟨edited, eq, editedDenotes⟩ :=
      deletedDenotes.insertRemoved .inverseData range inverseEq inverseStored small
    refine ⟨edited, ?_, editedDenotes⟩
    simp only [OmegaEdit.undoChangeInModel, kind, payloadLength data, ne_eq, not_true_eq_false,
      if_false, deletedEq, bind, Except.bind]
    exact eq

end Denotes

end OmegaEdit
