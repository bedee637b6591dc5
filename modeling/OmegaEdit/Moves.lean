import OmegaEdit.Composite
import OmegaEdit.Restores
import OmegaEdit.UndoRedo

/-! What the changes of all models keep. A change is recorded, moves between the active
and the undone side, and may be carried by an undone transform; nothing else happens to
it. So a property of active changes and one of undone changes that respect these moves
stay true in every model. -/
namespace OmegaEdit

namespace Model

def withUndone (model : Model) (undone : List Change) : Model :=
  { model with changesUndone := undone }

/-- The same model, or its segments rebuilt from the changes, which stay. -/
def Refreshed (model next : Model) : Prop :=
  next = model ∨ ∃ result, rebuildModelToChangeCount model model.changes.length = .ok (next, result)

end Model

/-- A transform that continues the changes of a model with a file of some size. -/
structure NewTransform (model : Model) (file : CheckpointFile) (size : Int) (change : Change) : Prop where
  kind : change.kind = .transform
  serial_eq : change.serial = model.numChanges + 1
  serial_pos : 0 < change.serial
  serial_le : change.serial ≤ int64Max
  preserved : change.preservedChangesUndone = []
  data : ∃ transformData, change.transformData = some transformData ∧
    transformData.checkpointFile = file ∧ transformData.computedFileSizeAfter = size

namespace Change

/-- An undone transform with the undone changes of its model. -/
def holding (change : Change) (undone : List Change) : Change :=
  { change.negate with preservedChangesUndone := undone }

/-- The transform that is redone, once its model has its undone changes back. -/
def released (change : Change) : Change :=
  { change.negate with preservedChangesUndone := [] }

end Change

namespace ModelStack

/-- Every model, active or set aside. -/
def All (P : Model → Prop) (stack : ModelStack) : Prop := ∀ model ∈ stack.order, P model

/-- The stack after a new change has dropped the undone changes. -/
def freed (stack : ModelStack) : ModelStack :=
  if stack.top.changesUndone.isEmpty then stack else stack.freeChangesUndone

def recorded (stack : ModelStack) (change : Change) (segments : List ModelSegment)
    (snapshots : Snapshots) : ModelStack :=
  ⟨stack.freed.below, stack.top.recorded change [] segments snapshots, []⟩

end ModelStack

/-- A rebuild replaces the segments and drops snapshots. -/
lemma rebuildModelToChangeCount_frame {model next : Model} {count result : Int}
    (rebuilt : rebuildModelToChangeCount model count = .ok (next, result)) :
    ∃ segments, next = { model with
      modelSnapshots := model.modelSnapshots.upTo count, modelSegments := segments } := by
  obtain ⟨replayed, _, done⟩ := Transition.bind_eq_ok.mp rebuilt
  cases done
  exact ⟨replayed.1, rfl⟩

namespace ModelStack
variable {P : Model → Prop} {stack : ModelStack}

lemma all_iff : stack.All P ↔
    P stack.top ∧ (∀ model ∈ stack.below, P model) ∧ ∀ model ∈ stack.future, P model := by
  simp only [All, order, models, List.mem_append, List.mem_reverse, List.mem_singleton]
  constructor
  · intro all
    exact ⟨all _ (.inl (.inr rfl)), fun model mem => all model (.inl (.inl mem)),
      fun model mem => all model (.inr mem)⟩
  · rintro ⟨top, below, future⟩ model ((mem | rfl) | mem)
    · exact below model mem
    · exact top
    · exact future model mem

lemma All.top (all : stack.All P) : P stack.top := (all_iff.mp all).1

lemma All.below (all : stack.All P) : ∀ model ∈ stack.below, P model := (all_iff.mp all).2.1

lemma All.future (all : stack.All P) : ∀ model ∈ stack.future, P model := (all_iff.mp all).2.2

lemma All.withTop {top : Model} (all : stack.All P) (holds : P top) :
    All P { stack with top } :=
  all_iff.mpr ⟨holds, all.below, all.future⟩

end ModelStack

/-- A property of models that says something of the active and something of the undone changes, and
that the moves of changes respect. -/
structure Kept (P : Model → Prop) (A U : Change → Prop) : Prop where
  iff : ∀ {model : Model}, P model ↔
    (∀ change ∈ model.changes, A change) ∧ ∀ change ∈ model.changesUndone, U change
  new : ∀ {model change}, NewChange model change → A change
  newTransform : ∀ {model file size change}, NewTransform model file size change → A change
  negate : ∀ {change : Change}, A change → U change.negate
  restore : ∀ {change : Change}, U change → A change.negate
  active : ∀ {change : Change} (start : Int), A change → A (change.startingAt start)
  undone : ∀ {change : Change} (start : Int), U change → U (change.startingAt start)
  holding : ∀ {change : Change} {undone : List Change}, A change → (∀ other ∈ undone, U other) →
    U (change.holding undone)
  released : ∀ {change : Change}, U change → A change.released
  carried : ∀ {change : Change}, U change → ∀ other ∈ change.preservedChangesUndone, U other

namespace Kept
variable {P : Model → Prop} {A U : Change → Prop} {model next : Model} {stack : ModelStack}
  {changes : List Change} {change : Change} {rest : List Change}

section
variable (kept : Kept P A U)
include kept

lemma frame (holds : P model) (active : next.changes = model.changes)
    (undone : next.changesUndone = model.changesUndone) : P next := by
  rw [kept.iff, active, undone]
  exact kept.iff.mp holds

lemma withUndone (holds : P model) (undone : ∀ change ∈ changes, U change) :
    P (model.withUndone changes) :=
  kept.iff.mpr ⟨(kept.iff.mp holds).1, undone⟩

lemma recorded {segments : List ModelSegment} {snapshots : Snapshots} (holds : P model)
    (active : A change) (undone : ∀ change ∈ changes, U change) :
    P (model.recorded change changes segments snapshots) := by
  refine kept.iff.mpr ⟨?_, undone⟩
  intro other mem
  rcases List.mem_append.mp mem with old | new
  · exact (kept.iff.mp holds).1 other old
  · rw [List.mem_singleton.mp new]
    exact active

/-- Active changes that are moved across the undo boundary. -/
lemma moved (holds : P model) (sub : changes ⊆ model.changes) :
    ∀ change ∈ changes.map Change.negate ++ model.changesUndone, U change := by
  intro change mem
  rcases List.mem_append.mp mem with fresh | old
  · obtain ⟨active, activeMem, rfl⟩ := List.mem_map.mp fresh
    exact kept.negate ((kept.iff.mp holds).1 active (sub activeMem))
  · exact (kept.iff.mp holds).2 change old

lemma undoneLast (holds : P model) (segments : List ModelSegment) : P (model.undoneLast segments) :=
  kept.iff.mpr ⟨fun change mem => (kept.iff.mp holds).1 change (List.mem_of_mem_take mem),
    kept.moved holds fun _ mem => lastTransaction_subset _ mem⟩

lemma first (holds : P model) (undone : model.changesUndone = change :: rest) :
    U change ∧ ∀ other ∈ rest, U other := by
  have all := (kept.iff.mp holds).2
  rw [undone] at all
  exact List.forall_mem_cons.mp all

lemma free (holds : P model) : P model.freeChangesUndone :=
  kept.iff.mpr ⟨(kept.iff.mp holds).1, by simp [Model.freeChangesUndone]⟩

lemma freeAll (all : stack.All P) : stack.freeChangesUndone.All P := by
  refine ModelStack.all_iff.mpr ⟨kept.free all.top, ?_, all.future⟩
  intro model mem
  obtain ⟨original, originalMem, rfl⟩ := List.mem_map.mp mem
  exact kept.free (all.below original originalMem)

lemma freed (all : stack.All P) : stack.freed.All P := by
  unfold ModelStack.freed
  split
  · exact all
  · exact kept.freeAll all

lemma rebuilt {count result : Int} (holds : P model)
    (rebuilt : rebuildModelToChangeCount model count = .ok (next, result)) : P next := by
  obtain ⟨_, rfl⟩ := rebuildModelToChangeCount_frame rebuilt
  exact kept.frame holds rfl rfl

lemma truncated (holds : P model) (keep : Nat) :
    P { model with changes := model.changes.take keep, changesUndone := [] } :=
  kept.iff.mpr ⟨fun change mem => (kept.iff.mp holds).1 change (List.mem_of_mem_take mem), by simp⟩

lemma moveChangesToUndo {keep : Nat} (holds : P model)
    (moved : model.moveChangesToUndo keep = some next) : P next := by
  unfold Model.moveChangesToUndo at moved
  split at moved
  · cases moved
  dsimp only at moved
  split at moved
  · cases moved
    exact holds
  split at moved
  · cases moved
  · cases moved
    exact kept.iff.mpr ⟨fun change mem => (kept.iff.mp holds).1 change (List.mem_of_mem_take mem),
      kept.moved holds (List.drop_subset keep _)⟩

lemma restoreChangesFromUndo {count : Nat} (holds : P model)
    (restored : model.restoreChangesFromUndo count = some next) : P next := by
  obtain ⟨active, undone⟩ := kept.iff.mp holds
  unfold Model.restoreChangesFromUndo at restored
  split at restored
  · cases restored
  dsimp only at restored
  split at restored
  · cases restored
  split at restored
  · cases restored
    refine kept.iff.mpr ⟨?_, fun change mem => undone change (List.mem_of_mem_drop mem)⟩
    intro change mem
    rcases List.mem_append.mp mem with old | given
    · exact active change old
    · obtain ⟨back, backMem, rfl⟩ := List.mem_map.mp given
      exact kept.restore (undone back (List.mem_of_mem_take backMem))
  · cases restored

/-- The restores of a checkout, whether or not all of them are made. -/
lemma restoreBelow {models : List Model} {base : Int} (holds : ∀ model ∈ models, P model) :
    ∀ model ∈ (ModelStack.restoreBelow models base).1, P model := by
  fun_induction ModelStack.restoreBelow models base with
  | case1 | case2 | case3 | case5 | case6 => exact holds
  | case4 model base count restored back =>
    have first := kept.restoreChangesFromUndo (holds model (by simp)) back
    simpa using first
  | case7 model following rest base count reached restored back later ih =>
    obtain ⟨first, others⟩ := List.forall_mem_cons.mp holds
    exact List.forall_mem_cons.mpr ⟨kept.restoreChangesFromUndo first back, ih others⟩

end
end Kept

lemma NewTransform.active {model : Model} {file : CheckpointFile} {size : Int} {change : Change}
    (new : NewTransform model file size change) : change.Active := by
  refine ⟨new.serial_pos, new.serial_le, ?_⟩
  rw [new.preserved]
  exact retainedAll_iff.mpr (by simp)

lemma Change.Active.holding {change : Change} {undone : List Change} (active : change.Active)
    (retained : ∀ other ∈ undone, other.Retained) : (change.holding undone).Retained := by
  obtain ⟨above, negative, _⟩ := Change.retained_iff.mp active.negate
  exact Change.retained_iff.mpr ⟨above, negative, retainedAll_iff.mpr retained⟩

lemma Change.Retained.released {change : Change} (retained : change.Retained) :
    change.released.Active := by
  obtain ⟨positive, le, _⟩ := retained.negate
  exact ⟨positive, le, retainedAll_iff.mpr (by simp [Change.released])⟩

/-- The moves of changes respect the signs. -/
theorem signed_kept : Kept Model.Signed Change.Active Change.Retained where
  iff := ⟨fun signed => ⟨signed.active, signed.undone⟩, fun both => ⟨both.1, both.2⟩⟩
  new recorded := recorded.active
  newTransform recorded := recorded.active
  negate active := active.negate
  restore retained := retained.negate
  active start active := active.startingAt start
  undone start retained := retained.startingAt start
  holding active retained := active.holding retained
  released retained := retained.released
  carried retained := retainedAll_iff.mp (Change.retained_iff.mp retained).2.2

lemma Model.Refreshed.frame {model next : Model} (refreshed : model.Refreshed next) :
    next.file = model.file ∧ next.changeSerialBase = model.changeSerialBase ∧
      next.changes = model.changes ∧ next.changesUndone = model.changesUndone := by
  rcases refreshed with rfl | ⟨_, rebuilt⟩
  · exact ⟨rfl, rfl, rfl, rfl⟩
  · obtain ⟨_, rfl⟩ := rebuildModelToChangeCount_frame rebuilt
    exact ⟨rfl, rfl, rfl, rfl⟩

end OmegaEdit
