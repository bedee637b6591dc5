import Mathlib.Data.List.Basic
import Mathlib.Data.Nat.Basic
import Mathlib.Tactic.Common

/-! Splices of a flat list: one contiguous stretch is cut out and another put in
its place. Insertion, deletion and overwriting are the three special cases an
editor records, and a splice is taken back by the splice that restores the
removed stretch. Offsets past the end are not excluded by the definitions; the
lemmas say where they need the offset to be in range. -/
namespace Splice
universe u
variable {α : Type u}

/-- The stretch of at most `count` elements that starts at `offset`. -/
def slice (content : List α) (offset count : Nat) : List α :=
  (content.drop offset).take count

/-- Replace the stretch `[offset, offset + removed)` by `inserted`. -/
def splice (content : List α) (offset removed : Nat) (inserted : List α) : List α :=
  content.take offset ++ inserted ++ content.drop (offset + removed)

@[simp] lemma slice_zero (content : List α) (offset : Nat) : slice content offset 0 = [] := by
  simp [slice]

lemma length_slice (content : List α) (offset count : Nat) :
    (slice content offset count).length = min count (content.length - offset) := by
  simp [slice]

lemma length_slice_of_le {content : List α} {offset count : Nat}
    (inside : offset + count ≤ content.length) : (slice content offset count).length = count := by
  rw [length_slice]
  omega

lemma slice_all (content : List α) : slice content 0 content.length = content := by
  simp [slice]

lemma slice_slice (content : List α) (offset count inner innerCount : Nat)
    (inside : inner + innerCount ≤ count) :
    slice (slice content offset count) inner innerCount =
      slice content (offset + inner) innerCount := by
  simp only [slice, List.drop_take, List.take_take, List.drop_drop]
  congr 1
  omega

lemma take_slice_append {content : List α} {offset count taken : Nat} (tail : List α)
    (inside : offset + count ≤ content.length) (short : taken ≤ count) :
    (slice content offset count ++ tail).take taken = slice content offset taken := by
  have length := length_slice_of_le inside
  rw [List.take_append_of_le_length (by omega), slice, List.take_take, Nat.min_eq_left short, slice]

lemma take_slice_min {content : List α} {offset count : Nat} (taken : Nat) (tail : List α)
    (inside : offset + count ≤ content.length) :
    (slice content offset (min count taken) ++ tail).take taken =
      (slice content offset count ++ tail).take taken := by
  rcases Nat.le_total count taken with fits | fills
  · rw [Nat.min_eq_left fits]
  · rw [Nat.min_eq_right fills, take_slice_append _ (by omega) le_rfl,
      take_slice_append _ inside fills]

lemma slice_split (content : List α) (offset count cut : Nat) (inside : cut ≤ count) :
    slice content offset count =
      slice content offset cut ++ slice content (offset + cut) (count - cut) := by
  have parts := List.take_append_drop cut (slice content offset count)
  simp only [slice, List.take_take, List.drop_take, List.drop_drop] at parts ⊢
  rw [Nat.min_eq_left inside] at parts
  exact parts.symm

lemma slice_to_end {content : List α} {offset count : Nat}
    (reaches : content.length ≤ offset + count) : slice content offset count = content.drop offset := by
  unfold slice
  rw [List.take_of_length_le]
  rw [List.length_drop]
  omega

lemma length_splice {content : List α} {offset : Nat} (removed : Nat) (inserted : List α)
    (inside : offset ≤ content.length) :
    (splice content offset removed inserted).length =
      offset + inserted.length + (content.length - (offset + removed)) := by
  simp only [splice, List.length_append, List.length_take, List.length_drop]
  omega

lemma splice_splice {content : List α} {offset : Nat} (removed : Nat) (inserted again : List α)
    (inside : offset ≤ content.length) :
    splice (splice content offset removed inserted) offset inserted.length again =
      splice content offset removed again := by
  have front : (content.take offset).length = offset := by simp [inside]
  unfold splice
  rw [List.drop_left' (by simp [inside]), List.append_assoc _ inserted, List.take_left' front]

lemma splice_slice (content : List α) (offset removed : Nat) :
    splice content offset removed (slice content offset removed) = content := by
  rw [splice, slice, List.append_assoc, ← List.drop_drop, List.take_append_drop,
    List.take_append_drop]

lemma splice_delete_insert (content : List α) {offset removed : Nat} (inserted : List α)
    (inside : offset ≤ content.length) :
    splice (splice content offset removed []) offset 0 inserted =
      splice content offset removed inserted :=
  splice_splice removed [] inserted inside

lemma splice_append_left (front : List α) (content : List α) (removed : Nat) (inserted : List α) :
    splice (front ++ content) front.length removed inserted =
      front ++ inserted ++ content.drop removed := by
  simp [splice]

lemma splice_clip (content : List α) (offset removed : Nat) (inserted : List α) :
    splice content offset (min removed (content.length - offset)) inserted =
      splice content offset removed inserted := by
  unfold splice
  congr 1
  rcases Nat.le_total removed (content.length - offset) with fits | past
  · rw [Nat.min_eq_left fits]
  · rw [Nat.min_eq_right past, List.drop_of_length_le (by omega), List.drop_of_length_le (by omega)]

lemma slice_clip (content : List α) (offset count : Nat) :
    slice content offset (min count (content.length - offset)) = slice content offset count := by
  unfold slice
  rw [← List.length_drop, ← List.take_eq_take_min]

lemma slice_append_left {front : List α} (back : List α) {offset count : Nat}
    (inside : offset + count ≤ front.length) :
    slice (front ++ back) offset count = slice front offset count := by
  unfold slice
  rw [List.drop_append_of_le_length (by omega), List.take_append_of_le_length]
  rw [List.length_drop]
  omega

lemma slice_append (front back : List α) {offset : Nat} (count : Nat)
    (inside : offset ≤ front.length) :
    slice (front ++ back) offset count =
      slice front offset count ++ slice back 0 (count - (front.length - offset)) := by
  unfold slice
  rw [List.drop_append_of_le_length inside, List.take_append, List.length_drop, List.drop_zero]

lemma slice_append_right (front back : List α) (offset count : Nat) :
    slice (front ++ back) (front.length + offset) count = slice back offset count := by
  unfold slice
  rw [← List.drop_drop, List.drop_left]

end Splice
