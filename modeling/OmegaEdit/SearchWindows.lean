import OmegaEdit.Finding
import OmegaEdit.Refinement

/-! The windows of a search. A forward search that is shorter than the largest window looks at one
window; a longer one goes on by overlapping windows to the end of the content, whatever its range
is. A reverse search goes back in the same way, and fails when a window would begin before the
content. -/
namespace OmegaEdit
open Occurrences Splice

lemma CaseFolding.fold_slice (folding : CaseFolding) (bytes : List Byte) (offset count : Nat) :
    folding.fold (slice bytes offset count) = slice (folding.fold bytes) offset count := by
  simp only [fold, slice, List.map_take, List.map_drop]

lemma CaseFolding.length_fold (folding : CaseFolding) (bytes : List Byte) :
    (folding.fold bytes).length = bytes.length := List.length_map _

@[simp] lemma CaseFolding.fold_none (bytes : List Byte) : CaseFolding.none.fold bytes = bytes :=
  List.map_id' bytes

lemma segmentsFrom_past {offset start : Int} {segments : List ModelSegment}
    (contiguous : Contiguous start segments) (sized : ∀ segment ∈ segments, segment.Sized)
    (nonempty : segments ≠ []) (past : start + totalLength segments < offset) :
    ∃ last, segmentsFrom offset segments = [last] ∧
      last.computedOffset + last.computedLength = start + totalLength segments ∧
      0 < last.computedLength := by
  induction segments generalizing start with
  | nil => exact absurd rfl nonempty
  | cons first tail ih =>
    obtain ⟨atStart, tailContiguous⟩ := contiguous
    obtain ⟨firstSized, tailSized⟩ := List.forall_mem_cons.mp sized
    have positive := firstSized.positive
    have tailNonneg := totalLength_nonneg tailSized
    rw [totalLength_cons] at past ⊢
    cases tail with
    | nil => exact ⟨first, rfl, by simp [atStart], positive⟩
    | cons second rest =>
      have atSecond := tailContiguous.1
      rw [segmentsFrom, if_neg (by omega)]
      obtain ⟨last, found, ends, long⟩ := ih tailContiguous tailSized (by simp) (by omega)
      exact ⟨last, found, by omega, long⟩

section Model
variable {model : Model} {content : List Byte} (denotes : model.HasContent content)

include denotes

lemma populateDataSegment_outside (nonempty : 0 < content.length) {offset capacity : Int}
    (outside : offset < 0 ∨ content.length < offset) :
    populateDataSegment model offset 0 capacity = .ok none := by
  obtain ⟨wellFormed, total, _⟩ := layout denotes
  unfold populateDataSegment
  cases segments : model.modelSegments with
  | nil =>
    rw [segments, totalLength_nil] at total
    omega
  | cons head tail =>
    rw [segments] at wellFormed total
    have dataOffset : safeAdd offset 0 = some offset :=
      safeAdd_eq_some_iff.mpr ⟨by omega, by omega, by omega⟩
    simp only [dataOffset]
    rcases outside with negative | past
    · rw [if_pos negative]
    · rw [if_neg (by omega)]
      obtain ⟨last, found, ends, long⟩ := segmentsFrom_past wellFormed.contiguous
        (sized_of_inBounds wellFormed.inBounds) (by simp) (by omega : 0 + _ < offset)
      have small := wellFormed.small
      have segmentEnd := segmentEnd_eq rfl long (by omega)
      simp only [found, segmentEnd]
      rw [if_pos (.inr (by omega))]

end Model

namespace SearchContext

/-- The folded content, in which the folded pattern is searched. -/
def text (context : SearchContext) (content : List Byte) : List Byte :=
  context.caseFolding.fold content

/-- An occurrence that begins at or after `low` and ends at or before `high`. -/
def Hit (context : SearchContext) (content : List Byte) (low high position : Nat) : Prop :=
  low ≤ position ∧ position + context.pattern.length ≤ high ∧
    Occurs context.pattern (context.text content) position

instance (context : SearchContext) (content : List Byte) (low high position : Nat) :
    Decidable (context.Hit content low high position) := inferInstanceAs (Decidable (_ ∧ _ ∧ _))

/-- What every context that was created has. -/
structure Ready (context : SearchContext) (isReverseSearch : Bool) : Prop where
  nonempty : 0 < context.pattern.length
  short : (context.pattern.length : Int) < searchPatternLengthLimit
  table : context.skipTable = createSkipTable context.pattern isReverseSearch

variable {context : SearchContext} {content : List Byte}

lemma Ready.pattern_lt {isReverseSearch : Bool} (ready : context.Ready isReverseSearch) :
    context.pattern.length < maxSegmentLength := Int.lt_trans ready.short (by decide)

lemma Ready.isReverse_eq {isReverseSearch : Bool} (ready : context.Ready isReverseSearch) :
    context.isReverse = isReverseSearch := by
  rw [isReverse, ready.table]
  rfl

lemma Hit.inside {low high position : Nat} (ready : 0 < context.pattern.length)
    (hit : context.Hit content low high position) :
    position + context.pattern.length ≤ content.length := by
  have inside := hit.2.2.inside ready
  rwa [text, CaseFolding.length_fold] at inside

lemma occurs_window (nonempty : 0 < context.pattern.length) (start count place : Nat) :
    Occurs context.pattern (context.caseFolding.fold (slice content start count)) place ↔
      context.Hit content start (start + count) (start + place) := by
  rw [CaseFolding.fold_slice, occurs_slice nonempty]
  constructor
  · rintro ⟨short, occurs⟩
    exact ⟨Nat.le_add_right _ _, by omega, occurs⟩
  · rintro ⟨_, short, occurs⟩
    exact ⟨by omega, occurs⟩

lemma find_window_forward (ready : context.Ready false) (start count : Nat) :
    Least (context.Hit content start (start + count))
      ((find (context.caseFolding.fold (slice content start count)) context.skipTable
        context.pattern).map (start + ·)) := by
  rw [ready.table]
  refine Least.shift ((find_forward_least ready.nonempty).congr fun place => ?_) fun place hit => hit.1
  exact occurs_window ready.nonempty start count place

lemma find_window_reverse (ready : context.Ready true) (start count : Nat) :
    Greatest (context.Hit content start (start + count))
      ((find (context.caseFolding.fold (slice content start count)) context.skipTable
        context.pattern).map (start + ·)) := by
  rw [ready.table]
  refine Greatest.shift ((find_reverse_greatest ready.nonempty).congr fun place => ?_)
    fun place hit => hit.1
  exact occurs_window ready.nonempty start count place

/-- A search down from `top` by the largest windows meets the occurrence in a window that begins
inside of the content. -/
def Reachable (context : SearchContext) (top position : Nat) : Prop :=
  maxSegmentLength + (top - context.patternLength - position) /
    (1 + maxSegmentLength - context.patternLength) *
      (1 + maxSegmentLength - context.patternLength) ≤ top

instance (context : SearchContext) (top position : Nat) :
    Decidable (context.Reachable top position) := inferInstanceAs (Decidable (_ ≤ _))

lemma reachable_of_window {start position : Nat}
    (hit : context.Hit content start (start + 1048576) position) :
    context.Reachable (start + 1048576) position := by
  have begins := hit.1
  have ends := hit.2.1
  have limit : maxSegmentLength = 1048576 := rfl
  have first : ((start + 1048576 : Nat) - context.patternLength - position : Int) /
      (1 + maxSegmentLength - context.patternLength) = 0 := by
    rw [patternLength]
    exact Int.ediv_eq_zero_of_lt (by omega) (by omega)
  rw [Reachable, first]
  omega

section Reachable
variable {isReverseSearch : Bool} (ready : context.Ready isReverseSearch)

include ready

lemma stride_pos : 0 < 1 + maxSegmentLength - context.patternLength := by
  have short := ready.pattern_lt
  rw [patternLength]
  omega

lemma Reachable.le_top {top position : Nat} (reachable : context.Reachable top position)
    (ends : position + context.pattern.length ≤ top) : maxSegmentLength ≤ top := by
  have stride := stride_pos ready
  have windows := Int.ediv_nonneg
    (by rw [patternLength]; omega : 0 ≤ (top : Int) - context.patternLength - position)
    (Int.le_of_lt stride)
  have moves := Int.mul_nonneg windows (Int.le_of_lt stride)
  unfold Reachable at reachable
  omega

lemma reachable_lower {top lower position : Nat}
    (below : lower + (1 + 1048576) = top + context.pattern.length) :
    context.Reachable top position ↔ context.Reachable lower position := by
  have limit : maxSegmentLength = 1048576 := rfl
  have stride := stride_pos ready
  have windows : ((top : Int) - context.patternLength - position) /
      (1 + maxSegmentLength - context.patternLength) = (lower - context.patternLength - position) /
        (1 + maxSegmentLength - context.patternLength) + 1 := by
    have further : (top : Int) - context.patternLength - position =
        (lower - context.patternLength - position) +
          (1 + maxSegmentLength - context.patternLength) := by
      rw [patternLength]
      omega
    rw [further, Int.add_ediv_of_dvd_right (Int.dvd_refl _), Int.ediv_self (by omega)]
  rw [Reachable, Reachable, windows, Int.add_mul, Int.one_mul]
  rw [patternLength] at stride ⊢
  omega

end Reachable

section Windows
variable {model : Model} (denotes : model.HasContent content)

include denotes

/-- One window: a match in it, or the next window if this one was of the largest size. -/
lemma searchWindows_succ {isReverseSearch : Bool} (ready : context.Ready isReverseSearch)
    {start : Nat} (capacity fuel : Nat) (inside : start ≤ content.length)
    (room : context.pattern.length ≤ capacity) (bounded : (capacity : Int) ≤ maxSegmentLength)
    {found : Option Nat}
    (window : (find (context.caseFolding.fold (slice content start capacity))
      context.skipTable context.pattern).map (start + ·) = found)
    (within : ∀ position ∈ found, position ≤ content.length) :
    context.searchWindows model capacity (fuel + 1) start = found.elim
      (if (capacity : Int) = maxSegmentLength ∧ start + capacity ≤ content.length then
        context.searchWindows model capacity fuel
          (start + (if isReverseSearch then -(1 + capacity - context.patternLength : Int)
            else 1 + capacity - context.patternLength))
      else .ok (some none))
      (fun position => .ok (some (some (position : Int)))) := by
  have small := denotes.length_le
  have nonempty := ready.nonempty
  have read := populateDataSegment_eq denotes (by omega : (0 : Int) ≤ start)
    (by omega : (start : Int) ≤ content.length) (by omega : (0 : Int) ≤ capacity)
  rw [Int.toNat_natCast, Int.toNat_natCast] at read
  rw [searchWindows]
  simp only [read, bind, Except.bind, ready.isReverse_eq]
  subst window
  cases result : find (context.caseFolding.fold (slice content start capacity))
      context.skipTable context.pattern with
  | some place =>
    have le := within (start + place) (by rw [result]; rfl)
    have sum : safeAdd (start : Int) (place : Int) = some ((start : Int) + place) :=
      safeAdd_of_le (by omega) (by omega)
    simp only [sum, Option.map_some, Option.elim_some, Int.natCast_add]
  | none =>
    have length := length_slice content start capacity
    simp only [Option.map_none, Option.elim_none]
    by_cases full : (capacity : Int) = maxSegmentLength ∧ start + capacity ≤ content.length
    · have whole : maxSegmentLength = (slice content start capacity).length := by omega
      have moved : safeAdd (start : Int)
          (if isReverseSearch then -(1 + capacity - context.patternLength : Int)
            else 1 + capacity - context.patternLength) =
          some (start + (if isReverseSearch then -(1 + capacity - context.patternLength : Int)
            else 1 + capacity - context.patternLength)) := by
        have most : int64Max = 9223372036854775807 := rfl
        have least : int64Min = -9223372036854775808 := rfl
        rw [safeAdd_eq_some_iff, patternLength]
        refine ⟨rfl, ?_, ?_⟩
        · split <;> omega
        · split <;> omega
      rw [if_pos full]
      simp only [moved]
      rw [if_pos whole]
    · have partly : ¬ maxSegmentLength = (slice content start capacity).length := by omega
      rw [if_neg full]
      split
      · rfl
      · rw [if_neg partly]

/-- A forward search with the largest window goes on to the end of the content. -/
lemma searchWindows_forward_far (ready : context.Ready false) {start capacity fuel : Nat}
    (inside : start ≤ content.length) (largest : (capacity : Int) = maxSegmentLength)
    (enough : content.length < start + fuel) :
    ∃ found : Option Nat,
      context.searchWindows model capacity fuel start = .ok (some (found.map Nat.cast)) ∧
      Least (context.Hit content start content.length) found := by
  have nonempty := ready.nonempty
  have short := ready.pattern_lt
  induction fuel generalizing start with
  | zero => omega
  | succ fuel ih =>
    have window := @find_window_forward context content ready start capacity
    have step := searchWindows_succ denotes ready capacity fuel inside (by omega) (by omega) rfl
    generalize (find (context.caseFolding.fold (slice content start capacity))
      context.skipTable context.pattern).map (start + ·) = found at window step
    cases found with
    | some position =>
      have within := window.1.inside nonempty
      refine ⟨some position, step (fun _ same => by cases same; omega), ⟨window.1.1, within,
        window.1.2.2⟩, fun other better => ?_⟩
      rcases Nat.lt_or_ge other position with before | after
      · refine window.2 other ⟨better.1, ?_, better.2.2⟩
        have := window.1.2.1
        omega
      · exact after
    | none =>
      rw [step (fun _ same => nomatch same), Option.elim_none]
      split
      · next full =>
        -- whatever begins before the next window would have been found in this one
        obtain ⟨found, rest, least⟩ := @ih (start + (1 + capacity - context.pattern.length))
          (by omega) (by omega)
        refine ⟨found, ?_, least.congr fun place => ?_⟩
        · rw [← rest]
          congr 1
          simp only [patternLength, Bool.false_eq_true, if_false]
          omega
        · constructor
          · rintro ⟨after, ends, occurs⟩
            exact ⟨by omega, ends, occurs⟩
          · rintro ⟨after, ends, occurs⟩
            refine ⟨Nat.not_lt.mp fun before => ?_, ends, occurs⟩
            exact window place ⟨after, by omega, occurs⟩
      · next partly =>
        refine ⟨none, rfl, fun place hit => window place ⟨hit.1, ?_, hit.2.2⟩⟩
        have := hit.2.1
        omega

/-- A search with a smaller window looks at that window only. -/
lemma searchWindows_near {isReverseSearch : Bool} (ready : context.Ready isReverseSearch)
    {start capacity fuel : Nat} (inside : start ≤ content.length)
    (room : context.pattern.length ≤ capacity) (smaller : (capacity : Int) < maxSegmentLength)
    (enough : 0 < fuel) {found : Option Nat}
    (window : (find (context.caseFolding.fold (slice content start capacity))
      context.skipTable context.pattern).map (start + ·) = found)
    (hits : ∀ position ∈ found, context.Hit content start (start + capacity) position) :
    context.searchWindows model capacity fuel start = .ok (some (found.map Nat.cast)) := by
  obtain ⟨fuel, rfl⟩ := Nat.exists_eq_succ_of_ne_zero (by omega : fuel ≠ 0)
  have step := searchWindows_succ denotes ready capacity fuel inside room (by omega) window
    fun position known => by have := (hits position known).inside ready.nonempty; omega
  rw [Nat.succ_eq_add_one, step, if_neg (by omega)]
  cases found <;> rfl

lemma searchWindows_forward_near (ready : context.Ready false) {start capacity fuel : Nat}
    (inside : start ≤ content.length) (room : context.pattern.length ≤ capacity)
    (smaller : (capacity : Int) < maxSegmentLength) (enough : 0 < fuel) :
    ∃ found : Option Nat,
      context.searchWindows model capacity fuel start = .ok (some (found.map Nat.cast)) ∧
      Least (context.Hit content start (start + capacity)) found := by
  have window := @find_window_forward context content ready start capacity
  exact ⟨_, searchWindows_near denotes ready inside room smaller enough rfl fun _ => window.mem, window⟩

lemma searchWindows_reverse_near (ready : context.Ready true) {start capacity fuel : Nat}
    (inside : start ≤ content.length) (room : context.pattern.length ≤ capacity)
    (smaller : (capacity : Int) < maxSegmentLength) (enough : 0 < fuel) :
    ∃ found : Option Nat,
      context.searchWindows model capacity fuel start = .ok (some (found.map Nat.cast)) ∧
      Greatest (context.Hit content start (start + capacity)) found := by
  have window := @find_window_reverse context content ready start capacity
  exact ⟨_, searchWindows_near denotes ready inside room smaller enough rfl fun _ => window.mem, window⟩

/-- With the largest window a reverse search goes on below its range. It ends at the last
occurrence before `top` if the window that holds it begins inside of the content, and fails
otherwise. -/
lemma searchWindows_reverse_far (ready : context.Ready true) {top fuel : Nat} {capacity : Int}
    (nonempty : 0 < content.length) (inside : top ≤ content.length)
    (largest : capacity = maxSegmentLength) (enough : top < fuel) {found : Option Nat}
    (greatest : Greatest (context.Hit content 0 top) found) :
    context.searchWindows model capacity fuel (top - capacity) =
      .ok (if ∃ position ∈ found, context.Reachable top position
        then some (found.map Nat.cast) else none) := by
  have positive := ready.nonempty
  have short := ready.pattern_lt
  have limit : maxSegmentLength = 1048576 := rfl
  induction fuel generalizing top with
  | zero => omega
  | succ fuel ih =>
    rcases Nat.lt_or_ge top 1048576 with low | high
    · -- the window would begin before the content
      have unreachable : ¬ ∃ position ∈ found, context.Reachable top position := by
        rintro ⟨position, known, reachable⟩
        have := reachable.le_top ready (greatest.mem known).2.1
        omega
      rw [searchWindows, populateDataSegment_outside denotes nonempty (.inl (by omega)),
        if_neg unreachable]
      rfl
    · obtain ⟨start, rfl⟩ := Nat.exists_eq_add_of_le' high
      have window := @find_window_reverse context content ready start 1048576
      have step := searchWindows_succ denotes ready 1048576 fuel (by omega : start ≤ content.length)
        (by omega) (by omega) rfl
      have begins : ((start + 1048576 : Nat) : Int) - capacity = (start : Int) := by omega
      have same : capacity = (1048576 : Nat) := by omega
      rw [begins]
      subst same
      generalize (find (context.caseFolding.fold (slice content start 1048576))
        context.skipTable context.pattern).map (start + ·) = here at window step
      cases here with
      | some position =>
        have within := window.1.inside positive
        have last : found = some position := by
          refine greatest.unique ⟨⟨Nat.zero_le _, window.1.2⟩, fun other hit => ?_⟩
          rcases Nat.lt_or_ge other start with before | after
          · exact Nat.le_trans (Nat.le_of_lt before) window.1.1
          · exact window.2 other ⟨after, hit.2⟩
        have reachable : context.Reachable (start + 1048576) position :=
          reachable_of_window window.1
        rw [step (fun _ same => by cases same; omega), Option.elim_some, last,
          if_pos ⟨position, rfl, reachable⟩]
        rfl
      | none =>
        rw [step (fun _ same => nomatch same), Option.elim_none, if_pos ⟨by omega, by omega⟩]
        have below : ∀ other, context.Hit content 0 (start + 1048576) other ↔
            context.Hit content 0 (start + context.pattern.length - 1) other := by
          intro other
          constructor
          · intro hit
            refine ⟨hit.1, Nat.not_lt.mp fun above => ?_, hit.2.2⟩
            exact window other ⟨by omega, hit.2⟩
          · intro hit
            exact ⟨hit.1, by have := hit.2.1; omega, hit.2.2⟩
        have lower := greatest.congr below
        have next := ih (by omega) (by omega) lower
        have offset : ((start + context.pattern.length - 1 : Nat) : Int) - (1048576 : Nat) =
            start + (if true then -(1 + (1048576 : Nat) - context.patternLength : Int)
              else 1 + (1048576 : Nat) - context.patternLength) := by
          rw [if_pos rfl, patternLength]
          omega
        have same : (∃ position ∈ found,
              context.Reachable (start + context.pattern.length - 1) position) ↔
            ∃ position ∈ found, context.Reachable (start + 1048576) position :=
          exists_congr fun _ => and_congr_right fun _ =>
            (reachable_lower ready (by omega)).symm
        rw [← offset, next, if_congr same rfl rfl]

end Windows

end SearchContext

end OmegaEdit
