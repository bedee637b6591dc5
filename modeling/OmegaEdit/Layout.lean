import OmegaEdit.Segment

/-! The geometry of a segment vector and the bytes it denotes. Contiguity is
stated from an arbitrary start, so that a tail of a vector is again a vector.
The walk `editAtOffset` meets one cut of the vector; everything an edit does to
the bytes is then a statement about the two sides of that cut. -/
namespace OmegaEdit
open Splice
variable {segment : ModelSegment} {delta start : Int} {segments : List ModelSegment}

namespace ModelSegment

/-- Where the bytes of a segment come from. -/
def source (file : List Byte) (segment : ModelSegment) : List Byte :=
  match segment.kind with
  | .read => file
  | .insert => (segment.change.payload segment.payloadRole).bytes

def bytes (file : List Byte) (segment : ModelSegment) : List Byte :=
  Splice.slice (segment.source file) segment.changeOffset.toNat segment.computedLength.toNat

def shift (delta : Int) (segment : ModelSegment) : ModelSegment :=
  { segment with computedOffset := segment.computedOffset + delta }

def firstPart (delta : Int) (segment : ModelSegment) : ModelSegment :=
  { segment with computedLength := delta }

def lastPart (delta : Int) (segment : ModelSegment) : ModelSegment :=
  { segment with
    computedOffset := segment.computedOffset + delta
    changeOffset := segment.changeOffset + delta
    computedLength := segment.computedLength - delta }

/-- A segment whose own numbers are values of `int64_t`. -/
structure Sized (segment : ModelSegment) : Prop where
  positive : 0 < segment.computedLength
  changeOffset_nonneg : 0 ≤ segment.changeOffset
  changeEnd_le : segment.changeOffset + segment.computedLength ≤ int64Max

/-- A segment inside its source, and a source inside its change. -/
structure InBounds (file : List Byte) (segment : ModelSegment) : Prop where
  positive : 0 < segment.computedLength
  changeOffset_nonneg : 0 ≤ segment.changeOffset
  inside : segment.changeOffset + segment.computedLength ≤ (segment.source file).length
  source_le : ((segment.source file).length : Int) ≤ segment.change.length
  change_le : segment.change.length ≤ int64Max
  stored : segment.kind = .insert →
    (segment.change.payload segment.payloadRole).storage ≠ .none

lemma InBounds.sized {file : List Byte} (bounds : segment.InBounds file) :
    segment.Sized :=
  ⟨bounds.positive, bounds.changeOffset_nonneg,
    Int.le_trans bounds.inside (Int.le_trans bounds.source_le bounds.change_le)⟩

@[simp] lemma bytes_shift (file : List Byte) (delta : Int) (segment : ModelSegment) :
    (segment.shift delta).bytes file = segment.bytes file := rfl

lemma InBounds.shift {file : List Byte} (bounds : segment.InBounds file) (delta : Int) :
    (segment.shift delta).InBounds file :=
  ⟨bounds.positive, bounds.changeOffset_nonneg, bounds.inside, bounds.source_le, bounds.change_le,
    bounds.stored⟩

lemma InBounds.firstPart {file : List Byte} (bounds : segment.InBounds file) (positive : 0 < delta)
    (inner : delta < segment.computedLength) :
    (segment.firstPart delta).InBounds file := by
  refine ⟨positive, bounds.changeOffset_nonneg, ?_, bounds.source_le, bounds.change_le,
    bounds.stored⟩
  have inside := bounds.inside
  show segment.changeOffset + delta ≤ (segment.source file).length
  omega

lemma InBounds.lastPart {file : List Byte} (bounds : segment.InBounds file) (nonneg : 0 ≤ delta)
    (inner : delta < segment.computedLength) :
    (segment.lastPart delta).InBounds file := by
  have offsetNonneg := bounds.changeOffset_nonneg
  have inside := bounds.inside
  refine ⟨?_, ?_, ?_, bounds.source_le, bounds.change_le, bounds.stored⟩
  · show 0 < segment.computedLength - delta
    omega
  · show 0 ≤ segment.changeOffset + delta
    omega
  · show segment.changeOffset + delta + (segment.computedLength - delta) ≤
      (segment.source file).length
    omega

lemma Sized.firstPart (sized : segment.Sized) (positive : 0 < delta)
    (inner : delta < segment.computedLength) :
    (segment.firstPart delta).Sized := by
  have changeEnd := sized.changeEnd_le
  refine ⟨positive, sized.changeOffset_nonneg, ?_⟩
  show segment.changeOffset + delta ≤ int64Max
  omega

lemma Sized.lastPart (sized : segment.Sized) (nonneg : 0 ≤ delta)
    (inner : delta < segment.computedLength) :
    (segment.lastPart delta).Sized := by
  have offsetNonneg := sized.changeOffset_nonneg
  have changeEnd := sized.changeEnd_le
  refine ⟨?_, ?_, ?_⟩
  · show 0 < segment.computedLength - delta
    omega
  · show 0 ≤ segment.changeOffset + delta
    omega
  · show segment.changeOffset + delta + (segment.computedLength - delta) ≤ int64Max
    omega

lemma InBounds.length_bytes {file : List Byte} (bounds : segment.InBounds file) :
    ((segment.bytes file).length : Int) = segment.computedLength := by
  have positive := bounds.positive
  have offsetNonneg := bounds.changeOffset_nonneg
  have inside := bounds.inside
  rw [bytes, length_slice_of_le (by omega)]
  omega

lemma InBounds.bytes_parts {file : List Byte} (bounds : segment.InBounds file) (nonneg : 0 ≤ delta)
    (inner : delta ≤ segment.computedLength) :
    segment.bytes file = (segment.firstPart delta).bytes file ++ (segment.lastPart delta).bytes file := by
  have offsetNonneg := bounds.changeOffset_nonneg
  have parts := slice_split (segment.source file) segment.changeOffset.toNat
    segment.computedLength.toNat delta.toNat (by omega)
  have lastOffset : (segment.changeOffset + delta).toNat =
      segment.changeOffset.toNat + delta.toNat := by omega
  have lastLength : (segment.computedLength - delta).toNat =
      segment.computedLength.toNat - delta.toNat := by omega
  show slice (segment.source file) _ _ =
    slice (segment.source file) segment.changeOffset.toNat delta.toNat ++
      slice (segment.source file) (segment.changeOffset + delta).toNat
        (segment.computedLength - delta).toNat
  rw [lastOffset, lastLength]
  exact parts

end ModelSegment

/-- The bytes a segment vector denotes. -/
def segmentBytes (file : List Byte) (segments : List ModelSegment) : List Byte :=
  segments.flatMap (ModelSegment.bytes file)

def totalLength : List ModelSegment → Int
  | [] => 0
  | segment :: rest => segment.computedLength + totalLength rest

/-- Each segment begins where the one before it ends, the first one at `start`. -/
def Contiguous : Int → List ModelSegment → Prop
  | _, [] => True
  | start, segment :: rest =>
    segment.computedOffset = start ∧ Contiguous (start + segment.computedLength) rest

structure WellFormed (file : List Byte) (segments : List ModelSegment) : Prop where
  contiguous : Contiguous 0 segments
  inBounds : ∀ segment ∈ segments, segment.InBounds file
  small : totalLength segments ≤ int64Max

section Bytes
variable (file : List Byte)

@[simp] lemma segmentBytes_nil : segmentBytes file [] = [] := rfl

@[simp] lemma segmentBytes_cons (segment : ModelSegment) (rest : List ModelSegment) :
    segmentBytes file (segment :: rest) = segment.bytes file ++ segmentBytes file rest := rfl

@[simp] lemma segmentBytes_append (left right : List ModelSegment) :
    segmentBytes file (left ++ right) = segmentBytes file left ++ segmentBytes file right := by
  simp [segmentBytes]

@[simp] lemma segmentBytes_shift (delta : Int) (segments : List ModelSegment) :
    segmentBytes file (segments.map (ModelSegment.shift delta)) = segmentBytes file segments := by
  induction segments with
  | nil => rfl
  | cons segment rest ih => simp [ih]

end Bytes

@[simp] lemma totalLength_nil : totalLength [] = 0 := rfl

@[simp] lemma totalLength_cons (segment : ModelSegment) (rest : List ModelSegment) :
    totalLength (segment :: rest) = segment.computedLength + totalLength rest := rfl

@[simp] lemma totalLength_append (left right : List ModelSegment) :
    totalLength (left ++ right) = totalLength left + totalLength right := by
  induction left with
  | nil => simp
  | cons segment rest ih => simp [ih, Int.add_assoc]

@[simp] lemma totalLength_shift (delta : Int) (segments : List ModelSegment) :
    totalLength (segments.map (ModelSegment.shift delta)) = totalLength segments := by
  induction segments with
  | nil => rfl
  | cons segment rest ih => simp [ih, ModelSegment.shift]

lemma totalLength_nonneg (sized : ∀ segment ∈ segments, segment.Sized) :
    0 ≤ totalLength segments := by
  induction segments with
  | nil => simp
  | cons segment rest ih =>
    have positive := (sized segment (by simp)).positive
    have rest := ih (fun other mem => sized other (by simp [mem]))
    simp only [totalLength_cons]
    omega

lemma length_segmentBytes {file : List Byte}
    (inBounds : ∀ segment ∈ segments, segment.InBounds file) :
    ((segmentBytes file segments).length : Int) = totalLength segments := by
  induction segments with
  | nil => rfl
  | cons segment rest ih =>
    have first := (inBounds segment (by simp)).length_bytes
    have rest := ih (fun other mem => inBounds other (by simp [mem]))
    simp only [segmentBytes_cons, List.length_append, totalLength_cons]
    omega

lemma contiguous_append {left right : List ModelSegment} :
    Contiguous start (left ++ right) ↔
      Contiguous start left ∧ Contiguous (start + totalLength left) right := by
  induction left generalizing start with
  | nil => simp [Contiguous]
  | cons segment rest ih => simp [Contiguous, ih, and_assoc, Int.add_assoc]

lemma Contiguous.shift (contiguous : Contiguous start segments) (delta : Int) :
    Contiguous (start + delta) (segments.map (ModelSegment.shift delta)) := by
  induction segments generalizing start with
  | nil => trivial
  | cons segment rest ih =>
    obtain ⟨first, rest⟩ := contiguous
    refine ⟨by simp [ModelSegment.shift, first], ?_⟩
    have shifted := ih rest
    rw [Int.add_right_comm] at shifted
    exact shifted

end OmegaEdit
