import OmegaEdit.Viewports

/-! Floating viewports and the byte they are anchored to. Where a byte is after a
call follows from the changes the call makes active. A floating viewport follows its
byte through the changes that are made. -/
namespace OmegaEdit

namespace ModelStack

/-- The active changes of all models, the oldest first. -/
def activeChanges (stack : ModelStack) : List Change := stack.models.flatMap Model.changes

lemma activeChanges_mk (below : List Model) (top : Model) (future : List Model) :
    activeChanges ⟨below, top, future⟩ = below.reverse.flatMap Model.changes ++ top.changes := by
  simp [activeChanges, models]

lemma activeChanges_freeChangesUndone (stack : ModelStack) :
    stack.freeChangesUndone.activeChanges = stack.activeChanges := by
  have same : ∀ models : List Model,
      (models.map Model.freeChangesUndone).flatMap Model.changes = models.flatMap Model.changes := by
    intro models
    rw [List.flatMap_map]
    rfl
  rw [activeChanges, activeChanges, ← same stack.models]
  simp [models, freeChangesUndone]

lemma activeChanges_freed (stack : ModelStack) : stack.freed.activeChanges = stack.activeChanges := by
  rw [freed]
  split
  · rfl
  · exact stack.activeChanges_freeChangesUndone

lemma activeChanges_recorded (stack : ModelStack) (change : Change) (segments : List ModelSegment)
    (snapshots : Snapshots) :
    (stack.recorded change segments snapshots).activeChanges = stack.activeChanges ++ [change] := by
  have freed := stack.activeChanges_freed
  have top : stack.freed.top.changes = stack.top.changes := by
    rw [ModelStack.freed]
    split <;> rfl
  rw [activeChanges, models, List.flatMap_append, List.flatMap_singleton, top] at freed
  rw [recorded, activeChanges_mk, ← freed]
  exact (List.append_assoc _ _ _).symm

end ModelStack

namespace Session

def activeChanges (session : Session) : List Change := session.stack.activeChanges

end Session

namespace Change

/-- A primitive change has a range; every change keeps it. -/
def Ranged (change : Change) : Prop := change.kind ≠ .transform → change.Shaped

lemma ranged_lasting : Lasting Ranged where
  intrinsic _ _ _ _ ranged primitive :=
    ⟨(ranged primitive).offset_nonneg, (ranged primitive).positive, (ranged primitive).end_le⟩
  new recorded _ := recorded.shaped
  newTransform recorded primitive := absurd recorded.kind primitive

/-- Where the byte at a position is after the change: an insert at the position moves it, a delete
may remove it, an overwrite leaves it in place, and so does a transform unless it has replaced its
range by one of another length. There are no positions past `int64_t`. -/
def position (change : Change) (position : Int) : Option Int :=
  match change.kind with
  | .insert =>
    if position < change.offset then some position
    else if position + change.length ≤ int64Max then some (position + change.length)
    else none
  | .delete =>
    if position < change.offset then some position
    else if change.offset + change.length ≤ position then some (position - change.length)
    else none
  | .overwrite => some position
  | .transform =>
    let replaced := (change.transformData.map TransformData.replacementLength).getD change.length
    if position < change.offset ∨ replaced = change.length then some position
    else if change.offset + change.length ≤ position then some (position - change.length + replaced)
    else none

/-- What the code makes of an effective offset. -/
def shift (change : Change) (position : Int) : Int :=
  match change.kind with
  | .insert => if change.offset ≤ position then min (position + change.length) int64Max else position
  | .delete => if change.offset ≤ position then max (position - change.length) 0 else position
  | .overwrite | .transform => position

end Change

namespace Viewport
variable {viewport : Viewport} {change : Change}

@[simp] lemma changed_getOffset : (viewport.changed change).getOffset =
    (updateViewportOffsetAdjustment change viewport).getOffset := by
  rw [changed]
  split
  · rfl
  · rfl

lemma placed_markDirty (placed : viewport.Placed) : viewport.markDirty.Placed :=
  ⟨placed.base_nonneg, placed.base_le, placed.nonneg, placed.le⟩

/-- An insert in front of a viewport shifts it, up to the largest offset there is. -/
lemma Placed.adjustedForInsert (placed : viewport.Placed) {length adjusted : Int}
    (positive : 0 < length)
    (same : (do
        let adjusted ← safeAdd viewport.offsetAdjustment length
        let _ ← safeAdd viewport.offset adjusted
        some adjusted : Option Int).getD (int64Max - viewport.offset) = adjusted) :
    viewport.offset + adjusted = min (viewport.offset + viewport.offsetAdjustment + length) int64Max := by
  have base_nonneg := placed.base_nonneg
  have base_le := placed.base_le
  have nonneg := placed.nonneg
  cases first : safeAdd viewport.offsetAdjustment length with
  | none =>
    rw [first] at same
    have overflow := safeAdd_eq_none_iff.mp first
    have saturated : int64Max - viewport.offset = adjusted := same
    omega
  | some sum =>
    rw [first] at same
    obtain ⟨rfl, _⟩ := safeAdd_eq_some_iff.mp first
    cases second : safeAdd viewport.offset (viewport.offsetAdjustment + length) with
    | none =>
      have saturated : int64Max - viewport.offset = adjusted := by simpa [second] using same
      have overflow := safeAdd_eq_none_iff.mp second
      unfold int64Min at overflow
      omega
    | some total =>
      have exact_sum : viewport.offsetAdjustment + length = adjusted := by simpa [second] using same
      obtain ⟨_, upper, _⟩ := safeAdd_eq_some_iff.mp second
      omega

lemma Placed.adjustedForDelete (placed : viewport.Placed) {length adjusted : Int}
    (positive : 0 < length)
    (same : (match safeAdd viewport.offset
          ((safeAdd viewport.offsetAdjustment (-length)).getD (-viewport.offset)) with
        | some adjustedOffset =>
          if adjustedOffset < 0 then -viewport.offset
          else (safeAdd viewport.offsetAdjustment (-length)).getD (-viewport.offset)
        | none => -viewport.offset) = adjusted) :
    viewport.offset + adjusted = max (viewport.offset + viewport.offsetAdjustment - length) 0 := by
  have base_nonneg := placed.base_nonneg
  have base_le := placed.base_le
  have le := placed.le
  unfold int64Max at base_le le
  cases first : safeAdd viewport.offsetAdjustment (-length) with
  | none =>
    rw [first, Option.getD_none] at same
    have overflow := safeAdd_eq_none_iff.mp first
    unfold int64Min int64Max at overflow
    have clamped : -viewport.offset = adjusted := by
      split at same
      · split at same
        · exact same
        · exact same
      · exact same
    omega
  | some sum =>
    obtain ⟨rfl, _⟩ := safeAdd_eq_some_iff.mp first
    rw [first, Option.getD_some] at same
    cases second : safeAdd viewport.offset (viewport.offsetAdjustment + -length) with
    | none =>
      have overflow := safeAdd_eq_none_iff.mp second
      obtain ⟨_, _, lower⟩ := safeAdd_eq_some_iff.mp first
      unfold int64Min int64Max at overflow
      unfold int64Min at lower
      omega
    | some total =>
      obtain ⟨rfl, _⟩ := safeAdd_eq_some_iff.mp second
      rw [second] at same
      have chosen : (if viewport.offset + (viewport.offsetAdjustment + -length) < 0 then -viewport.offset
          else viewport.offsetAdjustment + -length) = adjusted := same
      split at chosen
      · omega
      · omega

lemma Placed.moved (placed : viewport.Placed) (ranged : change.Ranged) :
    (updateViewportOffsetAdjustment change viewport).Placed ∧
      (updateViewportOffsetAdjustment change viewport).getOffset =
        if viewport.isFloating then change.shift viewport.getOffset else viewport.getOffset := by
  have here := placed.getOffset_eq
  have nonneg := placed.nonneg
  have le := placed.le
  have settled : ∀ adjusted, 0 ≤ viewport.offset + adjusted → viewport.offset + adjusted ≤ int64Max →
      Placed { viewport with offsetAdjustment := adjusted } ∧
        getOffset { viewport with offsetAdjustment := adjusted } = viewport.offset + adjusted := by
    intro adjusted lower upper
    have moved : Placed { viewport with offsetAdjustment := adjusted } :=
      ⟨placed.base_nonneg, placed.base_le, lower, upper⟩
    exact ⟨moved, moved.getOffset_eq⟩
  rw [updateViewportOffsetAdjustment, if_neg (by omega)]
  by_cases floating : viewport.isFloating = true
  · rw [if_pos floating]
    by_cases before : change.offset ≤ viewport.getOffset
    · rw [if_pos ⟨floating, before⟩]
      cases kind : change.kind with
      | delete =>
        have shaped := ranged (by simp [kind])
        have adjusted := placed.adjustedForDelete shaped.positive rfl
        obtain ⟨moved, offset⟩ := settled _ (by rw [adjusted]; omega) (by
          rw [adjusted]
          have := shaped.positive
          unfold int64Max at le ⊢
          omega)
        refine ⟨moved, offset.trans ?_⟩
        rw [adjusted, Change.shift, kind]
        dsimp only
        rw [if_pos before, here]
      | insert =>
        have shaped := ranged (by simp [kind])
        have adjusted := placed.adjustedForInsert shaped.positive rfl
        obtain ⟨moved, offset⟩ := settled _ (by
          rw [adjusted]
          have := shaped.positive
          unfold int64Max
          omega) (by rw [adjusted]; omega)
        refine ⟨moved, offset.trans ?_⟩
        rw [adjusted, Change.shift, kind]
        dsimp only
        rw [if_pos before, here]
      | overwrite | transform =>
        refine ⟨placed, ?_⟩
        rw [Change.shift, kind]
    · rw [if_neg (fun both => before both.2)]
      refine ⟨placed, ?_⟩
      cases kind : change.kind with
      | delete | insert => simp [Change.shift, kind, before]
      | overwrite | transform => simp [Change.shift, kind]
  · rw [if_neg (fun both => floating both.1), if_neg floating]
    exact ⟨placed, rfl⟩

lemma Placed.changed (placed : viewport.Placed) (ranged : change.Ranged) :
    (viewport.changed change).Placed := by
  rw [Viewport.changed]
  split
  · exact placed_markDirty (placed.moved ranged).1
  · exact (placed.moved ranged).1

end Viewport

lemma Viewport.placed_of_valid {viewport : Viewport} {capacity : Int}
    (valid : Session.validViewport viewport.offset capacity = true)
    (fresh : viewport.offsetAdjustment = 0) : viewport.Placed := by
  simp only [Session.validViewport, Bool.and_eq_true, decide_eq_true_eq,
    Option.isSome_iff_exists, safeAdd_eq_some_iff] at valid
  obtain ⟨⟨⟨nonneg, positive⟩, _⟩, _, _, upper, _⟩ := valid
  exact ⟨nonneg, by omega, by omega, by omega⟩

theorem placed_invariant : ViewportInvariant Change.Ranged Viewport.Placed where
  changed ranged placed := placed.changed ranged
  dirty placed := Viewport.placed_markDirty placed
  created valid := Viewport.placed_of_valid valid rfl
  modified _ valid := Viewport.placed_of_valid valid rfl
  filled _ placed := ⟨placed.base_nonneg, placed.base_le, placed.nonneg, placed.le⟩

namespace Change
variable {change : Change} {start place : Int}

/-- A change that is made shifts a viewport to where its byte goes. -/
lemma shift_of_position (shaped : change.Shaped) (primitive : change.kind ≠ .transform)
    (found : change.position start = some place) : change.shift start = place := by
  have offset_nonneg := shaped.offset_nonneg
  rw [position] at found
  rw [shift]
  cases kind : change.kind with
  | insert | delete =>
    rw [kind] at found
    dsimp only at found ⊢
    split at found
    · obtain rfl := Option.some.inj found
      exact if_neg (by omega)
    · split at found
      · obtain rfl := Option.some.inj found
        rw [if_pos (by omega)]
        omega
      · cases found
  | overwrite =>
    rw [kind] at found
    exact Option.some.inj found
  | transform => exact absurd kind primitive

end Change

/-- The byte that a viewport is to follow is the same byte: a change that fits the content leaves it
at the position. -/
lemma Change.PrimitiveFits.getElem?_position {change : Change} {content : List Byte}
    {start place : Int} (fits : change.PrimitiveFits content) (nonneg : 0 ≤ start)
    (inside : start < content.length) (moved : change.position start = some place)
    (kept : change.kind = .overwrite →
      start < change.offset ∨ change.offset + change.length ≤ start) :
    (change.apply content)[place.toNat]? = content[start.toNat]? := by
  obtain ⟨range, fits⟩ := fits
  have offset_nonneg := range.offset_nonneg
  have positive := range.positive
  have before : ∀ (removed : Nat) (bytes : List Byte), start < change.offset →
      (Splice.splice content change.offset.toNat removed bytes)[start.toNat]? = content[start.toNat]? := by
    intro removed bytes front
    rw [Splice.splice, List.append_assoc, List.getElem?_append_left (by simp; omega),
      List.getElem?_take_of_lt (by omega)]
  have after : ∀ (removed : Nat) (bytes : List Byte), change.offset + removed ≤ start →
      (Splice.splice content change.offset.toNat removed bytes)[
        (start - removed + bytes.length).toNat]? = content[start.toNat]? := by
    intro removed bytes behind
    have front : (content.take change.offset.toNat).length = change.offset.toNat := by
      rw [List.length_take]
      omega
    rw [Splice.splice, List.getElem?_append_right (by simp; omega), List.getElem?_drop,
      List.length_append, front]
    congr 1
    omega
  rw [Change.position] at moved
  rw [Change.apply]
  cases kind : change.kind with
  | insert =>
    rw [kind] at moved fits
    have size := fits.1.length_data
    dsimp only at moved ⊢
    split at moved
    · obtain rfl := Option.some.inj moved
      exact before _ _ (by assumption)
    · split at moved
      · obtain rfl := Option.some.inj moved
        have found := after 0 change.data.bytes (by omega)
        rw [size] at found
        simpa using found
      · cases moved
  | delete =>
    rw [kind] at moved
    dsimp only at moved ⊢
    split at moved
    · obtain rfl := Option.some.inj moved
      exact before _ _ (by assumption)
    · split at moved
      · obtain rfl := Option.some.inj moved
        have found := after change.length.toNat [] (by omega)
        rw [Int.toNat_of_nonneg (by omega)] at found
        simpa using found
      · cases moved
  | overwrite =>
    rw [kind] at moved fits
    obtain rfl := Option.some.inj moved
    have size := fits.1.length_data
    rcases kept kind with front | behind
    · exact before _ _ front
    · have found := after change.length.toNat change.data.bytes (by omega)
      rw [Int.toNat_of_nonneg (by omega), size, Int.sub_add_cancel] at found
      exact found
  | transform =>
    rw [kind] at fits
    exact absurd fits id

namespace Session
variable {session next : Session} {index : Nat} {viewport : Viewport} {change : Change} {place : Int}

/-- The effective offset of a viewport. -/
def viewportOffset (session : Session) (index : Nat) : Option Int :=
  session.viewports[index]?.map Viewport.getOffset

/-- A change that is made leaves a floating viewport at its byte. -/
lemma viewportOffset_of_position (found : session.viewports[index]? = some viewport)
    (placed : viewport.Placed) (floating : viewport.isFloating = true) (shaped : change.Shaped)
    (primitive : change.kind ≠ .transform)
    (shown : next.viewports = session.viewports.map (fun viewport => viewport.changed change))
    (moved : change.position viewport.getOffset = some place) :
    next.viewportOffset index = some place := by
  rw [viewportOffset, shown, List.getElem?_map, found, Option.map_some, Option.map_some,
    Viewport.changed_getOffset, (placed.moved fun _ => shaped).2, if_pos floating,
    Change.shift_of_position shaped primitive moved]

end Session

end OmegaEdit
