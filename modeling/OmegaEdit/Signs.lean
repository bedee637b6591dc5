import OmegaEdit.Soundness

/-! The sign of a serial says on which side of the undo boundary a change is.
Undone transforms carry undone changes of their own, so the statement about an
undone change goes down into what it carries. -/
namespace OmegaEdit

mutual

/-- An undone change, with the undone changes it carries. -/
def Change.Retained : Change → Prop
  | ⟨serial, _, _, _, _, _, _, _, _, preserved⟩ =>
    int64Min < serial ∧ serial < 0 ∧ RetainedAll preserved

def RetainedAll : List Change → Prop
  | [] => True
  | change :: rest => change.Retained ∧ RetainedAll rest

end

namespace Change

/-- An active change. -/
structure Active (change : Change) : Prop where
  positive : 0 < change.serial
  le : change.serial ≤ int64Max
  preserved : RetainedAll change.preservedChangesUndone

lemma retained_iff {change : Change} :
    change.Retained ↔ int64Min < change.serial ∧ change.serial < 0 ∧
      RetainedAll change.preservedChangesUndone := by
  cases change
  simp [Retained]

lemma Active.negate {change : Change} (active : change.Active) : change.negate.Retained := by
  have positive := active.positive
  have le := active.le
  rw [retained_iff]
  refine ⟨?_, ?_, active.preserved⟩
  · show int64Min < -change.serial
    unfold int64Min
    unfold int64Max at le
    omega
  · show -change.serial < 0
    omega

lemma Retained.negate {change : Change} (retained : change.Retained) : change.negate.Active := by
  obtain ⟨above, negative, preserved⟩ := retained_iff.mp retained
  refine ⟨?_, ?_, preserved⟩
  · show 0 < -change.serial
    omega
  · show -change.serial ≤ int64Max
    unfold int64Min at above
    unfold int64Max
    omega

lemma Retained.negative {change : Change} (retained : change.Retained) : change.serial < 0 :=
  (retained_iff.mp retained).2.1

lemma Active.startingAt {change : Change} (active : change.Active) (start : Int) :
    (change.startingAt start).Active :=
  ⟨active.positive, active.le, active.preserved⟩

lemma Retained.startingAt {change : Change} (retained : change.Retained) (start : Int) :
    (change.startingAt start).Retained := by
  rw [retained_iff] at retained ⊢
  exact retained

end Change

lemma retainedAll_iff {changes : List Change} :
    RetainedAll changes ↔ ∀ change ∈ changes, change.Retained := by
  induction changes with
  | nil => simp [RetainedAll]
  | cons change rest ih => simp [RetainedAll, ih]

/-- The active changes of a model have positive serials and the undone ones negative serials. -/
structure Model.Signed (model : Model) : Prop where
  active : ∀ change ∈ model.changes, change.Active
  undone : ∀ change ∈ model.changesUndone, change.Retained

namespace Model.Signed
variable {model : Model}

/-- Moving active changes across the undo boundary. -/
lemma moved (signed : model.Signed) {changes : List Change} (sub : changes ⊆ model.changes) :
    ∀ change ∈ changes.map Change.negate ++ model.changesUndone, change.Retained := by
  intro change mem
  rcases List.mem_append.mp mem with fresh | old
  · obtain ⟨active, activeMem, rfl⟩ := List.mem_map.mp fresh
    exact (signed.active active (sub activeMem)).negate
  · exact signed.undone change old

lemma recorded {change : Change} {undone : List Change} {segments : List ModelSegment}
    {snapshots : Snapshots} (signed : model.Signed) (active : change.Active)
    (retained : ∀ other ∈ undone, other.Retained) :
    (model.recorded change undone segments snapshots).Signed := by
  refine ⟨?_, retained⟩
  intro other mem
  rcases List.mem_append.mp mem with old | new
  · exact signed.active other old
  · rw [List.mem_singleton.mp new]
    exact active

end Model.Signed

lemma NewChange.active {model : Model} {change : Change} (new : NewChange model change) :
    change.Active := by
  refine ⟨new.serial_pos, new.serial_le, ?_⟩
  rw [new.preserved]
  exact retainedAll_iff.mpr (by simp)

lemma Session.recorded_signed {session : Session} {change : Change} (segments : List ModelSegment)
    (viewports : List Viewport) (signed : session.top.Signed) (new : NewChange session.top change) :
    (session.recorded change segments viewports).top.Signed := by
  rw [recorded_top]
  exact signed.recorded new.active (by simp)

end OmegaEdit
