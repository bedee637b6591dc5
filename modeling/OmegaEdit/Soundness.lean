import OmegaEdit.Refinement
import Mathlib.Data.List.Induction

/-! A sound model: its segments denote the replay of its change list on its
backing file, its retained changes fit what they would be replayed on, and its
snapshots denote the replay of the prefix they were taken after. The lemmas say
that a model stays sound when a change is recorded, a run of changes is undone,
its segments are rebuilt, or its lists are cut. -/
namespace OmegaEdit
variable {count : Int} {snapshots : Snapshots} {snapshot : Int × List ModelSegment}
  {segments : List ModelSegment} {change : Change} {undone changes : List Change}
  {content : List Byte}

/-- A transform stands only first, in the model over the file it made. -/
structure Model.TransformsPlaced (model : Model) : Prop where
  first : ∀ change ∈ model.changes.head?, change.kind = .transform →
    ∃ transformData, change.transformData = some transformData ∧
      model.file = some transformData.checkpointFile
  later : ∀ change ∈ model.changes.tail, change.kind ≠ .transform

/-- A snapshot was taken after one of the changes the model has. -/
structure Model.SnapshotSound (model : Model) (snapshot : Int × List ModelSegment) : Prop where
  positive : 0 < snapshot.1
  le : snapshot.1 ≤ model.changes.length
  denotes : Denotes model.fileBytes snapshot.2
    (replay (model.changes.take snapshot.1.toNat) model.fileBytes)

structure Model.Sound (model : Model) : Prop where
  denotes : model.HasContent (replay model.changes model.fileBytes)
  fits : FitsAll model.fileBytes (model.changes ++ model.changesUndone)
  small : (model.fileBytes.length : Int) ≤ int64Max
  snapshots : ∀ snapshot ∈ model.modelSnapshots, model.SnapshotSound snapshot
  placed : model.TransformsPlaced

namespace Model.Sound
variable {model : Model}

lemma fits_changes (sound : model.Sound) : FitsAll model.fileBytes model.changes :=
  (fitsAll_append.mp sound.fits).1

lemma fits_undone (sound : model.Sound) :
    FitsAll (replay model.changes model.fileBytes) model.changesUndone :=
  (fitsAll_append.mp sound.fits).2

lemma content_eq (sound : model.Sound) : model.content = replay model.changes model.fileBytes :=
  sound.denotes.content_eq

end Model.Sound

lemma Snapshots.mem_upTo (mem : snapshot ∈ snapshots.upTo count) :
    snapshot ∈ snapshots ∧ snapshot.1 ≤ count := by
  induction snapshots with
  | nil => cases mem
  | cons first rest ih =>
    unfold upTo at mem ih
    rw [List.takeWhile_cons] at mem
    split at mem
    · rename_i below
      rcases List.mem_cons.mp mem with rfl | later
      · exact ⟨by simp, by simpa using below⟩
      · exact ⟨List.mem_cons_of_mem _ (ih later).1, (ih later).2⟩
    · cases mem

lemma Snapshots.mem_put (mem : snapshot ∈ snapshots.put count segments) :
    snapshot ∈ snapshots ∨ snapshot = (count, segments) := by
  rcases List.mem_append.mp mem with before | later
  · exact .inl ((List.takeWhile_sublist _).subset before)
  · rcases List.mem_cons.mp later with rfl | after
    · exact .inr rfl
    · exact .inl ((List.dropWhile_sublist _).subset after)

/-- The model after one more change. -/
def Model.recorded (model : Model) (change : Change) (undone : List Change)
    (segments : List ModelSegment) (snapshots : Snapshots) : Model :=
  { model with
    changes := model.changes ++ [change], changesUndone := undone, modelSegments := segments
    modelSnapshots := snapshots }

/-- The snapshots after one more change: those before it and perhaps one of the new segments. -/
def Model.SnapshotsTaken (model : Model) (segments : List ModelSegment)
    (snapshots : Snapshots) : Prop :=
  ∀ snapshot ∈ snapshots, snapshot ∈ model.modelSnapshots ∨
    snapshot = (((model.changes.length + 1 : Nat) : Int), segments)

lemma Session.snapshotsTaken_newSnapshots (session : Session) (segments : List ModelSegment) :
    session.top.SnapshotsTaken segments (session.newSnapshots segments) := by
  intro snapshot mem
  unfold newSnapshots at mem
  split at mem
  · exact Snapshots.mem_put mem
  · exact .inl mem

namespace Model.TransformsPlaced
variable {model : Model}

lemma recorded (placed : model.TransformsPlaced) (primitive : change.kind ≠ .transform) :
    (model.recorded change undone segments snapshots).TransformsPlaced := by
  cases changes : model.changes with
  | nil =>
    have only : (model.recorded change undone segments snapshots).changes = [change] := by
      simp [Model.recorded, changes]
    constructor
    · intro first mem transform
      rw [only] at mem
      cases mem
      exact absurd transform primitive
    · intro other mem
      rw [only] at mem
      cases mem
  | cons head tail =>
    have extended : (model.recorded change undone segments snapshots).changes =
        head :: (tail ++ [change]) := by
      simp [Model.recorded, changes]
    constructor
    · intro first mem transform
      rw [extended] at mem
      refine placed.first first ?_ transform
      rw [changes]
      exact mem
    · intro other mem
      rw [extended] at mem
      rcases List.mem_append.mp mem with old | new
      · refine placed.later other ?_
        rw [changes]
        exact old
      · rw [List.mem_singleton.mp new]
        exact primitive

lemma cut (placed : model.TransformsPlaced) (keep : Nat) :
    TransformsPlaced { model with
      changes := model.changes.take keep, changesUndone := undone, modelSegments := segments
      modelSnapshots := snapshots } := by
  constructor
  · intro first mem
    refine placed.first first ?_
    cases keep with
    | zero => cases mem
    | succ keep =>
      cases changes : model.changes with
      | nil =>
        rw [changes] at mem
        cases mem
      | cons head tail =>
        rw [changes] at mem
        exact mem
  · intro other mem
    have sub : (model.changes.take keep).tail.Sublist model.changes.tail :=
      (List.take_sublist keep model.changes).tail
    exact placed.later other (sub.subset mem)

end Model.TransformsPlaced

lemma Change.Fits.length_apply_le (fits : change.Fits content)
    (small : (content.length : Int) ≤ int64Max) :
    ((change.apply content).length : Int) ≤ int64Max := by
  by_cases transform : change.kind = .transform
  · simpa [Change.apply, transform] using small
  obtain ⟨range, byKind⟩ := (Change.fits_iff_of_ne transform).mp fits
  have reached := range.offset_nonneg
  have endLe := range.end_le
  cases kind : change.kind with
  | insert =>
    rw [kind] at byKind
    have length := byKind.1.length_data
    simp only [Change.apply, kind, Splice.splice, List.length_append, List.length_take,
      List.length_drop]
    omega
  | delete =>
    simp only [Change.apply, kind, Splice.splice, List.length_append, List.length_take,
      List.length_drop, List.length_nil]
    omega
  | overwrite =>
    rw [kind] at byKind
    have length := byKind.1.length_data
    simp only [Change.apply, kind, Splice.splice, List.length_append, List.length_take,
      List.length_drop]
    omega
  | transform => exact absurd kind transform

lemma length_replay_le (fits : FitsAll content changes) (small : (content.length : Int) ≤ int64Max) :
    ((replay changes content).length : Int) ≤ int64Max := by
  induction changes generalizing content with
  | nil => exact small
  | cons change rest ih =>
    obtain ⟨first, later⟩ := fitsAll_cons.mp fits
    exact ih later (first.length_apply_le small)

/-- Undoing changes, the last first, gives back what they were recorded on. -/
lemma Denotes.undoChangesInModel {file : List Byte}
    (denotes : Denotes file segments (replay changes content)) (fits : FitsAll content changes)
    (primitive : ∀ change ∈ changes, change.kind ≠ .transform)
    (small : (content.length : Int) ≤ int64Max) :
    ∃ edited, OmegaEdit.undoChangesInModel changes.reverse segments = .ok (some edited) ∧
      Denotes file edited content := by
  induction changes using List.reverseRecOn generalizing segments with
  | nil => exact ⟨segments, rfl, denotes⟩
  | append_singleton front last ih =>
    obtain ⟨frontFits, lastFits⟩ := fitsAll_append.mp fits
    rw [replay_append] at denotes
    obtain ⟨middle, undone, restored⟩ := Denotes.undoChangeInModel denotes
      (fitsAll_cons.mp lastFits).1 (primitive last (by simp)) (length_replay_le frontFits small)
    obtain ⟨edited, rest, final⟩ := ih restored frontFits
      (fun change mem => primitive change (by simp [mem]))
    refine ⟨edited, ?_, final⟩
    rw [List.reverse_append, List.reverse_singleton, List.singleton_append,
      OmegaEdit.undoChangesInModel, undone]
    exact rest

/-- Whether a list of changes fits does not depend on the signs of the serials. -/
lemma fitsAll_map_negate :
    FitsAll content (changes.map Change.negate) ↔ FitsAll content changes := by
  induction changes generalizing content with
  | nil => exact Iff.rfl
  | cons change rest ih =>
    rw [List.map_cons, fitsAll_cons, fitsAll_cons, Change.fits_negate, Change.apply_negate, ih]

lemma replay_map_negate (changes : List Change) (content : List Byte) :
    replay (changes.map Change.negate) content = replay changes content := by
  induction changes generalizing content with
  | nil => rfl
  | cons change rest ih => rw [List.map_cons, replay_cons, replay_cons, Change.apply_negate, ih]

namespace Model.Sound
variable {model : Model}

lemma record {rest : List Change} (sound : model.Sound)
    (fits : FitsAll (replay model.changes model.fileBytes) (change :: rest))
    (primitive : change.kind ≠ .transform)
    (applied : updateModel change model.modelSegments = .ok (some segments))
    (taken : model.SnapshotsTaken segments snapshots) :
    (model.recorded change rest segments snapshots).Sound := by
  obtain ⟨changeFits, restFits⟩ := fitsAll_cons.mp fits
  obtain ⟨edited, done, denotes⟩ := Denotes.updateModel sound.denotes changeFits
  rw [done] at applied
  cases applied
  have replayed : replay (model.changes ++ [change]) model.fileBytes =
      change.apply (replay model.changes model.fileBytes) := by
    rw [replay_append, replay_cons, replay_nil]
  refine ⟨?_, ?_, sound.small, ?_, sound.placed.recorded primitive⟩
  · show Denotes model.fileBytes segments (replay (model.changes ++ [change]) model.fileBytes)
    rw [replayed]
    exact denotes
  · show FitsAll model.fileBytes (model.changes ++ [change] ++ rest)
    rw [List.append_assoc]
    exact fitsAll_append.mpr ⟨sound.fits_changes, fits⟩
  · intro snapshot mem
    rcases taken snapshot mem with old | rfl
    · obtain ⟨positive, le, snapshotDenotes⟩ := sound.snapshots snapshot old
      refine ⟨positive, ?_, ?_⟩
      · show snapshot.1 ≤ ((model.changes ++ [change]).length : Nat)
        rw [List.length_append, List.length_singleton]
        omega
      · show Denotes model.fileBytes snapshot.2
          (replay ((model.changes ++ [change]).take snapshot.1.toNat) model.fileBytes)
        rw [List.take_append_of_le_length (by omega)]
        exact snapshotDenotes
    · refine ⟨by show (0 : Int) < (model.changes.length + 1 : Nat); omega, ?_, ?_⟩
      · show ((model.changes.length + 1 : Nat) : Int) ≤ ((model.changes ++ [change]).length : Nat)
        exact Int.le_of_eq (by rw [List.length_append, List.length_singleton])
      · show Denotes model.fileBytes segments (replay ((model.changes ++ [change]).take
          (((model.changes.length + 1 : Nat) : Int)).toNat) model.fileBytes)
        rw [Int.toNat_natCast, List.take_of_length_le (by simp), replayed]
        exact denotes

/-- Cutting the change list after `keep` changes, with segments that denote what is left. -/
lemma cut {keep : Nat} (sound : model.Sound) (inside : keep ≤ model.changes.length)
    (fits : FitsAll (replay (model.changes.take keep) model.fileBytes) undone)
    (denotes : Denotes model.fileBytes segments
      (replay (model.changes.take keep) model.fileBytes))
    (trimmed : ∀ snapshot ∈ snapshots, snapshot ∈ model.modelSnapshots ∧ snapshot.1 ≤ keep) :
    Sound { model with
      changes := model.changes.take keep, changesUndone := undone, modelSegments := segments
      modelSnapshots := snapshots } := by
  have kept := sound.fits_changes
  rw [← List.take_append_drop keep model.changes] at kept
  refine ⟨denotes, fitsAll_append.mpr ⟨(fitsAll_append.mp kept).1, fits⟩, sound.small, ?_,
    sound.placed.cut keep⟩
  · intro snapshot mem
    obtain ⟨old, le⟩ := trimmed snapshot mem
    obtain ⟨positive, _, snapshotDenotes⟩ := sound.snapshots snapshot old
    refine ⟨positive, ?_, ?_⟩
    · show snapshot.1 ≤ ((model.changes.take keep).length : Nat)
      rw [List.length_take, Nat.min_eq_left inside]
      exact le
    · show Denotes model.fileBytes snapshot.2
        (replay ((model.changes.take keep).take snapshot.1.toNat) model.fileBytes)
      rw [List.take_take, Nat.min_eq_left (by omega)]
      exact snapshotDenotes

/-- What follows the first `keep` changes fits behind them, whatever the signs. -/
lemma fits_moved (sound : model.Sound) (keep : Nat) :
    FitsAll (replay (model.changes.take keep) model.fileBytes)
      ((model.changes.drop keep).map Change.negate ++ model.changesUndone) := by
  have fits := sound.fits
  rw [← List.take_append_drop keep model.changes, List.append_assoc] at fits
  obtain ⟨_, later⟩ := fitsAll_append.mp fits
  obtain ⟨moved, undone⟩ := fitsAll_append.mp later
  refine fitsAll_append.mpr ⟨fitsAll_map_negate.mpr moved, ?_⟩
  rw [replay_map_negate]
  exact undone

end Model.Sound

lemma Session.recorded_sound {session : Session} (viewports : List Viewport)
    (sound : session.top.Sound) (new : NewChange session.top change)
    (applied : updateModel change session.top.modelSegments = .ok (some segments)) :
    (session.recorded change segments viewports).top.Sound := by
  rw [recorded_top]
  have fits : FitsAll (replay session.top.changes session.top.fileBytes) [change] :=
    fitsAll_cons.mpr ⟨new.fits _ sound.denotes, fitsAll_nil _⟩
  exact sound.record fits new.primitive applied (session.snapshotsTaken_newSnapshots segments)

end OmegaEdit
