import OmegaEdit.Layout

/-! What the segment loops do to a contiguous vector: the walk finds one cut, a
deletion drops bytes behind it, an insertion puts a segment there, and no
checked addition fails while the vector ends below the bound of `int64_t`. -/
namespace OmegaEdit

/-- A vector cut in two, between two segments or inside one. -/
inductive Cut : List ModelSegment → List ModelSegment → List ModelSegment → Prop where
  | between (left right : List ModelSegment) : Cut (left ++ right) left right
  | inside (left : List ModelSegment) (segment : ModelSegment) (rest : List ModelSegment)
      (delta : Int) (positive : 0 < delta) (inner : delta < segment.computedLength) :
      Cut (left ++ segment :: rest) (left ++ [segment.firstPart delta])
        (segment.lastPart delta :: rest)

namespace Cut
variable {segments left right : List ModelSegment}

lemma cons (segment : ModelSegment) (cut : Cut segments left right) :
    Cut (segment :: segments) (segment :: left) right := by
  cases cut with
  | between => exact .between (segment :: left) right
  | inside front inner rest delta positive below =>
    exact .inside (segment :: front) inner rest delta positive below

lemma totalLength_eq (cut : Cut segments left right) :
    totalLength segments = totalLength left + totalLength right := by
  cases cut with
  | between => simp
  | inside front segment rest delta positive below =>
    simp [ModelSegment.firstPart, ModelSegment.lastPart]
    omega

lemma contiguous {start : Int} (cut : Cut segments left right)
    (contiguous : Contiguous start segments) :
    Contiguous start left ∧ Contiguous (start + totalLength left) right := by
  cases cut with
  | between => exact contiguous_append.mp contiguous
  | inside front segment rest delta positive below =>
    obtain ⟨before, at_, after⟩ := contiguous_append.mp contiguous
    refine ⟨contiguous_append.mpr ⟨before, at_, trivial⟩, ?_, ?_⟩
    · simp [ModelSegment.firstPart, ModelSegment.lastPart, at_, Int.add_assoc]
    · have sameEnd : start + totalLength (front ++ [segment.firstPart delta]) +
          (segment.lastPart delta).computedLength =
          start + totalLength front + segment.computedLength := by
        simp [ModelSegment.firstPart, ModelSegment.lastPart]
        omega
      rw [sameEnd]
      exact after

/-- A property of segments that survives cutting holds on both sides of a cut. -/
lemma forall_of_parts {P : ModelSegment → Prop}
    (first : ∀ segment delta, P segment → 0 < delta → delta < segment.computedLength →
      P (segment.firstPart delta))
    (last : ∀ segment delta, P segment → 0 < delta → delta < segment.computedLength →
      P (segment.lastPart delta))
    (cut : Cut segments left right) (all : ∀ segment ∈ segments, P segment) :
    (∀ segment ∈ left, P segment) ∧ ∀ segment ∈ right, P segment := by
  cases cut with
  | between =>
    exact ⟨fun segment mem => all segment (by simp [mem]),
      fun segment mem => all segment (by simp [mem])⟩
  | inside front segment rest delta positive below =>
    have here := all segment (by simp)
    constructor
    · intro other mem
      rcases List.mem_append.mp mem with mem | mem
      · exact all other (by simp [mem])
      · rw [List.mem_singleton.mp mem]
        exact first segment delta here positive below
    · intro other mem
      rcases List.mem_cons.mp mem with rfl | mem
      · exact last segment delta here positive below
      · exact all other (by simp [mem])

lemma sized (cut : Cut segments left right) (sized : ∀ segment ∈ segments, segment.Sized) :
    (∀ segment ∈ left, segment.Sized) ∧ ∀ segment ∈ right, segment.Sized :=
  cut.forall_of_parts (fun _ _ sized positive below => sized.firstPart positive below)
    (fun _ _ sized positive below => sized.lastPart (Int.le_of_lt positive) below) sized

lemma inBounds {file : List Byte} (cut : Cut segments left right)
    (inBounds : ∀ segment ∈ segments, segment.InBounds file) :
    (∀ segment ∈ left, segment.InBounds file) ∧ ∀ segment ∈ right, segment.InBounds file :=
  cut.forall_of_parts (fun _ _ bounds positive below => bounds.firstPart positive below)
    (fun _ _ bounds positive below => bounds.lastPart (Int.le_of_lt positive) below) inBounds

lemma segmentBytes_eq {file : List Byte} (cut : Cut segments left right)
    (inBounds : ∀ segment ∈ segments, segment.InBounds file) :
    segmentBytes file segments = segmentBytes file left ++ segmentBytes file right := by
  cases cut with
  | between => simp
  | inside front segment rest delta positive below =>
    have parts := (inBounds segment (by simp)).bytes_parts (Int.le_of_lt positive)
      (Int.le_of_lt below)
    simp [parts]

end Cut

lemma sized_of_inBounds {file : List Byte} {segments : List ModelSegment}
    (inBounds : ∀ segment ∈ segments, segment.InBounds file) :
    ∀ segment ∈ segments, segment.Sized :=
  fun segment mem => (inBounds segment mem).sized

lemma splitSegment_eq {segment : ModelSegment} {delta : Int} (sized : segment.Sized)
    (small : segment.computedOffset + segment.computedLength ≤ int64Max)
    (positive : 0 < delta) (below : delta < segment.computedLength) :
    splitSegment segment delta = some (segment.firstPart delta, segment.lastPart delta) := by
  have changeEnd := sized.changeEnd_le
  have offset : safeAdd segment.computedOffset delta = some (segment.computedOffset + delta) :=
    safeAdd_of_le (Int.le_of_lt positive) (by omega)
  have changeOffset : safeAdd segment.changeOffset delta = some (segment.changeOffset + delta) :=
    safeAdd_of_le (Int.le_of_lt positive) (by omega)
  simp [splitSegment, offset, changeOffset, ModelSegment.firstPart, ModelSegment.lastPart]

lemma segmentEnd_eq {segment : ModelSegment} {start : Int} (atStart : segment.computedOffset = start)
    (positive : 0 < segment.computedLength) (small : start + segment.computedLength ≤ int64Max) :
    safeAdd segment.computedOffset segment.computedLength = some (start + segment.computedLength) := by
  rw [atStart]
  exact safeAdd_of_le (Int.le_of_lt positive) small

lemma map_append_cons (segment : ModelSegment) (left : List ModelSegment) (edited : SegmentsResult) :
    (do let edited ← edited.map (Option.map (left ++ ·)); .ok (edited.map (segment :: ·))) =
      edited.map (Option.map (segment :: left ++ ·)) := by
  rcases edited with fault | _ | edited <;> rfl

lemma map_append_nil (edited : SegmentsResult) : edited.map (Option.map ([] ++ ·)) = edited := by
  rcases edited with fault | _ | edited <;> rfl

/-- The walk runs `edit` behind one cut of the vector, at `offset`. -/
lemma editAtOffset_cut (edit : List ModelSegment → SegmentsResult) {offset start : Int}
    {segments : List ModelSegment} (contiguous : Contiguous start segments)
    (sized : ∀ segment ∈ segments, segment.Sized) (nonneg : 0 ≤ start)
    (small : start + totalLength segments ≤ int64Max) (nonempty : segments ≠ [])
    (reached : start ≤ offset) (inside : offset ≤ start + totalLength segments) :
    ∃ left right, Cut segments left right ∧ start + totalLength left = offset ∧
      editAtOffset offset edit start segments = (edit right).map (Option.map (left ++ ·)) := by
  induction segments generalizing start with
  | nil => exact absurd rfl nonempty
  | cons segment rest ih =>
    obtain ⟨atStart, restContiguous⟩ := contiguous
    obtain ⟨segmentSized, restSized⟩ := List.forall_mem_cons.mp sized
    have positive := segmentSized.positive
    have restNonneg := totalLength_nonneg restSized
    rw [totalLength_cons] at small inside
    have segmentEnd := segmentEnd_eq atStart positive (by omega)
    rw [editAtOffset, segmentEnd]
    simp only [atStart, ne_eq, not_true_eq_false, if_false, reached, true_and]
    by_cases located : offset ≤ start + segment.computedLength
    · rw [if_pos located]
      by_cases here : offset = start
      · rw [if_pos here]
        exact ⟨[], segment :: rest, .between [] _, by simp [here], (map_append_nil _).symm⟩
      · rw [if_neg here]
        by_cases atEnd : offset - start = segment.computedLength
        · rw [if_pos atEnd]
          refine ⟨[segment], rest, .between [segment] _, by simp; omega, ?_⟩
          rw [← map_append_cons, map_append_nil]
        · rw [if_neg atEnd, splitSegment_eq segmentSized (by omega) (by omega) (by omega)]
          refine ⟨[segment.firstPart (offset - start)], segment.lastPart (offset - start) :: rest,
            .inside [] segment rest _ (by omega) (by omega), ?_, ?_⟩
          · have covers : (segment.firstPart (offset - start)).computedLength = offset - start := rfl
            rw [totalLength_cons, covers, totalLength_nil]
            omega
          · rw [← map_append_cons, map_append_nil]
    · rw [if_neg located, safeAdd_of_le (Int.le_of_lt positive) (by omega)]
      have restNonempty : rest ≠ [] := by
        rintro rfl
        simp at inside
        omega
      obtain ⟨left, right, cut, leftEnd, walked⟩ := ih restContiguous restSized (by omega)
        (by omega) restNonempty (by omega) (by omega)
      refine ⟨segment :: left, right, cut.cons segment, by simp; omega, ?_⟩
      simp only [walked]
      exact map_append_cons segment left (edit right)

lemma shiftOffsets_eq {start delta : Int} {segments : List ModelSegment}
    (contiguous : Contiguous start segments) (sized : ∀ segment ∈ segments, segment.Sized)
    (nonneg : 0 ≤ start + delta) (small : start + totalLength segments + delta ≤ int64Max) :
    shiftOffsets delta segments = some (segments.map (ModelSegment.shift delta)) := by
  induction segments generalizing start with
  | nil => rfl
  | cons segment rest ih =>
    obtain ⟨atStart, restContiguous⟩ := contiguous
    obtain ⟨segmentSized, restSized⟩ := List.forall_mem_cons.mp sized
    have positive := segmentSized.positive
    have restNonneg := totalLength_nonneg restSized
    rw [totalLength_cons] at small
    have here : safeAdd segment.computedOffset delta = some (segment.computedOffset + delta) := by
      rcases Int.le_total 0 delta with forward | backward
      · exact safeAdd_of_le forward (by omega)
      · exact safeAdd_neg_of_le backward (by omega)
    have rest := ih restContiguous restSized (by omega) (by omega)
    simp [shiftOffsets, here, rest, ModelSegment.shift]

/-- A deletion from the front erases one side of a cut and moves the other. -/
lemma deleteSegments_cut {length remaining start : Int} {segments : List ModelSegment}
    (contiguous : Contiguous start segments) (sized : ∀ segment ∈ segments, segment.Sized)
    (nonneg : 0 ≤ remaining) (moved : 0 ≤ start + remaining - length) (partial_ : remaining ≤ length)
    (small : start + totalLength segments ≤ int64Max) :
    ∃ left right, Cut segments left right ∧
      totalLength left = min remaining (totalLength segments) ∧
      deleteSegments length remaining segments =
        some (right.map (ModelSegment.shift (-length))) := by
  induction segments generalizing start remaining with
  | nil => exact ⟨[], [], .between [] [], by simp; omega, rfl⟩
  | cons segment rest ih =>
    obtain ⟨atStart, restContiguous⟩ := contiguous
    obtain ⟨segmentSized, restSized⟩ := List.forall_mem_cons.mp sized
    have positive := segmentSized.positive
    have changeEnd := segmentSized.changeEnd_le
    have restNonneg := totalLength_nonneg restSized
    rw [totalLength_cons] at small
    rw [deleteSegments]
    by_cases done : remaining = 0
    · subst done
      rw [if_pos rfl]
      refine ⟨[], segment :: rest, .between [] _, by simp; omega, ?_⟩
      have whole : Contiguous start (segment :: rest) := ⟨atStart, restContiguous⟩
      exact shiftOffsets_eq whole sized (by omega) (by simp; omega)
    · rw [if_neg done]
      by_cases whole : segment.computedLength ≤ remaining
      · rw [if_pos whole]
        have less : 0 ≤ remaining - segment.computedLength := by omega
        obtain ⟨left, right, cut, erased, deleted⟩ := ih restContiguous restSized less (by omega)
          (by omega) (by omega)
        refine ⟨segment :: left, right, cut.cons segment, ?_, deleted⟩
        simp only [totalLength_cons, erased]
        omega
      · rw [if_neg whole]
        have offset : safeAdd segment.computedOffset (remaining - length) =
            some (segment.computedOffset + (remaining - length)) :=
          safeAdd_neg_of_le (by omega) (by omega)
        have changeOffset : safeAdd segment.changeOffset remaining =
            some (segment.changeOffset + remaining) := safeAdd_of_le nonneg (by omega)
        have shifted : shiftOffsets (-length) rest = some (rest.map (ModelSegment.shift (-length))) :=
          shiftOffsets_eq restContiguous restSized (by omega) (by omega)
        refine ⟨[segment.firstPart remaining], segment.lastPart remaining :: _,
          .inside [] segment _ remaining (by omega) (by omega), ?_, ?_⟩
        · simp [ModelSegment.firstPart]
          omega
        · simp [offset, changeOffset, shifted, ModelSegment.lastPart, ModelSegment.shift]
          omega

section Edited
variable {segments : List ModelSegment} {offset : Int}

/-- An insertion puts its segment into one cut of the vector and moves what is behind it. -/
lemma editAtOffset_insert (inserted : ModelSegment) (contiguous : Contiguous 0 segments)
    (sized : ∀ segment ∈ segments, segment.Sized) (nonempty : segments ≠ [])
    (reached : 0 ≤ offset) (inside : offset ≤ totalLength segments)
    (positive : 0 < inserted.computedLength)
    (small : totalLength segments + inserted.computedLength ≤ int64Max) :
    ∃ left right, Cut segments left right ∧ totalLength left = offset ∧
      editAtOffset offset (fun located => .ok (insertSegment inserted located)) 0 segments =
        .ok (some (left ++
          inserted :: right.map (ModelSegment.shift inserted.computedLength))) := by
  obtain ⟨left, right, cut, leftEnd, walked⟩ :=
    editAtOffset_cut (fun located => .ok (insertSegment inserted located)) contiguous sized
      (Int.le_refl 0) (by omega) nonempty reached (by omega)
  have sides := cut.contiguous contiguous
  have total := cut.totalLength_eq
  have shifted : shiftOffsets inserted.computedLength right =
      some (right.map (ModelSegment.shift inserted.computedLength)) :=
    shiftOffsets_eq sides.2 (cut.sized sized).2 (by omega) (by omega)
  refine ⟨left, right, cut, by omega, ?_⟩
  rw [walked]
  simp [insertSegment, shifted, Except.map]

lemma editAtOffset_delete {length : Int} (contiguous : Contiguous 0 segments)
    (sized : ∀ segment ∈ segments, segment.Sized) (nonempty : segments ≠ [])
    (reached : 0 ≤ offset) (inside : offset ≤ totalLength segments) (nonneg : 0 ≤ length)
    (small : totalLength segments ≤ int64Max) :
    ∃ left rest middle right, Cut segments left rest ∧ Cut rest middle right ∧
      totalLength left = offset ∧ totalLength middle = min length (totalLength rest) ∧
      editAtOffset offset (fun located => .ok (deleteSegments length length located)) 0 segments =
        .ok (some (left ++ right.map (ModelSegment.shift (-length)))) := by
  obtain ⟨left, rest, cut, leftEnd, walked⟩ :=
    editAtOffset_cut (fun located => .ok (deleteSegments length length located)) contiguous sized
      (Int.le_refl 0) (by omega) nonempty reached (by omega)
  have total := cut.totalLength_eq
  obtain ⟨middle, right, inner, erased, deleted⟩ := deleteSegments_cut
    (cut.contiguous contiguous).2 (cut.sized sized).2 nonneg (by omega) (Int.le_refl length)
    (by omega)
  refine ⟨left, rest, middle, right, cut, inner, by omega, erased, ?_⟩
  rw [walked]
  simp [deleted, Except.map]

end Edited

end OmegaEdit
