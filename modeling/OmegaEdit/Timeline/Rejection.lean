import OmegaEdit.Timeline.Storage

/-! What a capture that fails leaves behind. Its `finally` block removes the archive unless the
manifest has been committed, so it matters whether a file of that name was there before, whether
the removal succeeds, and whether the capture can still fail after the commit. -/
namespace OmegaEdit.Timeline
open Utf16
variable {maxCheckpoints : Nat} {storage : Storage} {capture : Capture} {faults : Faults}

/-- A capture without other calls in between. -/
def captureInterval (maxCheckpoints : Nat) (storage : Storage) (options : CaptureOptions) (raw : ArchiveFile)
    (optimized : Option ArchiveFile) (faults : Faults) : Storage × Task :=
  complete maxCheckpoints faults 8 storage (.begin (.captureInterval options raw optimized))

/-- The winner of a capture, if it gets to its place. -/
def Capture.archived (capture : Capture) (faults : Faults) : Option (ArchiveFile × Bool) :=
  match capture.writeArchive faults with
  | .error _ => none
  | .ok winner => if faults.first [.winnerRename, .renameArchive] = none then some winner else none

/-- The manifest that a capture with a winner commits, if it does. -/
def Capture.committed (capture : Capture) (value : Manifest) (faults : Faults) (winner : ArchiveFile)
    (optimized : Bool) : Option Manifest :=
  if faults.first [.loserRemoval, .removeLoser] = none ∧ faults.first commitPoints = none then
    (capture.buildManifest value winner optimized).toOption
  else none

/-- No file has the name of the archive before, and it can be removed; or the capture does not fail
after its commit. -/
def Harmless (storage : Storage) (capture : Capture) (faults : Faults) : Prop :=
  match capture.archived faults with
  | none => faults .removeArchive = none → storage.files capture.file = none
  | some (winner, optimized) =>
    match capture.committed storage.value faults winner optimized with
    | some _ => faults .reconcile = none
    | none =>
      if faults .removeArchive = none then storage.files capture.file = none
      else storage.files capture.file = some winner

namespace Storage
variable {name : Text} {file : ArchiveFile}

lemma update_eq_self {entry : Option ArchiveFile} :
    { storage with files := Function.update storage.files name entry } = storage ↔
      storage.files name = entry := by
  constructor
  · intro same
    have files := congrFun (congrArg files same) name
    exact files.symm.trans (Function.update_self name entry storage.files)
  · rintro rfl
    rw [Function.update_eq_self]

lemma remove_write : (storage.write name file).remove name = storage.remove name := by
  rw [remove, write, remove, Function.update_idem]

/-- What the `finally` block of a capture that has not committed leaves. -/
def cleaned (storage : Storage) (name : Text) (faults : Faults) : Storage :=
  if faults .removeArchive = none then storage.remove name else storage

end Storage

lemma first_singleton (faults : Faults) (point : Point) : faults.first [point] = faults point := by
  rw [Faults.first]
  cases found : faults point with
  | none | some error => simp [found]

section Runs
variable (maxCheckpoints storage)

lemma complete_finished (steps : Nat) (failure : Option TimelineStorageError) :
    complete maxCheckpoints faults steps storage (.finished failure) = (storage, .finished failure) := by
  cases steps with
  | zero => rfl
  | succ steps => rfl

lemma complete_cleanUp (steps : Nat) (failure : Option TimelineStorageError) :
    complete maxCheckpoints faults (steps + 1) storage (.cleanUp capture false failure) =
      (storage.cleaned capture.file faults, .finished failure) := by
  rw [complete, advance, Storage.cleaned, first_singleton]
  by_cases removed : faults .removeArchive = none
  · simp [removed, complete_finished]
  · simp [removed, complete_finished]

/-- A capture gets its archive to its place, or it fails. -/
lemma complete_archived (generation : capture.options.expectedGeneration = storage.value.nextGeneration) :
    match capture.archived faults with
    | none => ∃ error, complete maxCheckpoints faults 7 storage (.writeArchive capture) =
        (storage.cleaned capture.file faults, .finished (some error))
    | some (winner, optimized) => complete maxCheckpoints faults 7 storage (.writeArchive capture) =
        complete maxCheckpoints faults 5 (storage.write capture.file winner)
          (.buildManifest capture winner optimized) := by
  rw [Capture.archived, complete, advance]
  cases capture.writeArchive faults with
  | error error => exact ⟨error, complete_cleanUp _ _ 5 (some error)⟩
  | ok winner =>
    simp only [generation, ne_eq, not_true_eq_false, if_false]
    rw [complete, advance]
    cases faults.first [.winnerRename, .renameArchive] with
    | none => rfl
    | some error => exact ⟨error, complete_cleanUp _ _ 4 (some error)⟩

lemma committed_eq_some {value candidate : Manifest} {winner : ArchiveFile} {optimized : Bool}
    (committed : capture.committed value faults winner optimized = some candidate) :
    (faults.first [.loserRemoval, .removeLoser] = none ∧ faults.first commitPoints = none) ∧
      capture.buildManifest value winner optimized = .ok candidate := by
  rw [Capture.committed] at committed
  split at committed
  · rename_i passed
    refine ⟨passed, ?_⟩
    cases built : capture.buildManifest value winner optimized with
    | error error =>
      rw [built] at committed
      cases committed
    | ok result =>
      rw [built] at committed
      cases committed
      rfl
  · cases committed

lemma complete_buildManifest_none {winner : ArchiveFile} {optimized : Bool}
    (lost : capture.committed storage.value faults winner optimized = none) :
    ∃ error, complete maxCheckpoints faults 5 storage (.buildManifest capture winner optimized) =
      (storage.cleaned capture.file faults, .finished (some error)) := by
  rw [Capture.committed] at lost
  rw [complete, advance]
  cases removal : faults.first [.loserRemoval, .removeLoser] with
  | some error => exact ⟨error, complete_cleanUp _ _ 3 (some error)⟩
  | none =>
    cases built : capture.buildManifest storage.value winner optimized with
    | error error => exact ⟨error, complete_cleanUp _ _ 3 (some error)⟩
    | ok candidate =>
      simp only
      rw [complete, advance, Origin.points, List.nil_append]
      cases stored : faults.first commitPoints with
      | some error => exact ⟨error, complete_cleanUp _ _ 2 (some error)⟩
      | none => simp [removal, stored, built, Except.toOption] at lost

lemma complete_buildManifest_some {winner : ArchiveFile} {optimized : Bool} {candidate : Manifest}
    (kept : capture.committed storage.value faults winner optimized = some candidate) :
    complete maxCheckpoints faults 5 storage (.buildManifest capture winner optimized) =
      (⟨candidate, candidate, storage.files⟩, .finished (faults .reconcile)) := by
  obtain ⟨⟨removed, stored⟩, built⟩ := committed_eq_some kept
  rw [complete, advance, removed, built]
  simp only
  rw [complete, advance, Origin.points, List.nil_append, stored, ← first_singleton faults .reconcile]
  rfl

end Runs

lemma cleaned_eq_self {name : Text} :
    storage.cleaned name faults = storage ↔
      (faults .removeArchive = none → storage.files name = none) := by
  rw [Storage.cleaned]
  split
  · rename_i removed
    exact Storage.update_eq_self.trans ⟨fun absent _ => absent, fun absent => absent removed⟩
  · rename_i kept
    exact ⟨fun _ removed => absurd removed kept, fun _ => rfl⟩

lemma cleaned_write_eq_self {name : Text} {winner : ArchiveFile} :
    (storage.write name winner).cleaned name faults = storage ↔
      if faults .removeArchive = none then storage.files name = none
      else storage.files name = some winner := by
  rw [Storage.cleaned]
  split
  · rw [Storage.remove_write]
    exact Storage.update_eq_self
  · exact Storage.update_eq_self

lemma committed_ne_value {value : Manifest} {winner : ArchiveFile} {optimized : Bool} {candidate : Manifest}
    (committed : capture.committed value faults winner optimized = some candidate) : candidate ≠ value := by
  obtain ⟨_, built⟩ := committed_eq_some committed
  rw [Capture.buildManifest] at built
  obtain ⟨entry, -, built⟩ := Transition.bind_eq_ok.mp built
  obtain ⟨-, -, built⟩ := Transition.bind_eq_ok.mp built
  cases built
  intro same
  have generations : value.nextGeneration + 1 = value.nextGeneration :=
    congrArg Manifest.nextGeneration same
  omega

lemma expectedGeneration_of_startCapture {value : Manifest} {options : CaptureOptions}
    {ends : Fingerprint × Fingerprint} (started : value.startCapture maxCheckpoints options = .ok ends) :
    options.expectedGeneration = value.nextGeneration := by
  rw [Manifest.startCapture] at started
  obtain ⟨-, started⟩ := ChangeLog.guard_eq_ok.mp started
  obtain ⟨current, -⟩ := ChangeLog.guard_eq_ok.mp started
  exact not_not.mp current

variable (maxCheckpoints capture faults) in
/-- A capture that has started ends, and if it fails nothing has changed exactly if it is harmless. -/
lemma complete_writeArchive (generation : capture.options.expectedGeneration = storage.value.nextGeneration) :
    ∃ next failure, complete maxCheckpoints faults 7 storage (.writeArchive capture) =
        (next, .finished failure) ∧
      ((failure ≠ none → next = storage) ↔ Harmless storage capture faults) := by
  have archived := @complete_archived maxCheckpoints storage capture faults generation
  rw [Harmless]
  cases kept : capture.archived faults with
  | none =>
    rw [kept] at archived
    obtain ⟨error, ended⟩ := archived
    refine ⟨_, _, ended, ?_⟩
    rw [← cleaned_eq_self]
    exact ⟨fun unchanged => unchanged nofun, fun unchanged _ => unchanged⟩
  | some result =>
    obtain ⟨winner, optimized⟩ := result
    rw [kept] at archived
    rw [archived]
    simp only
    cases committed : capture.committed storage.value faults winner optimized with
    | none =>
      obtain ⟨error, ended⟩ := complete_buildManifest_none maxCheckpoints
        (storage.write capture.file winner) committed
      refine ⟨_, _, ended, ?_⟩
      simp only
      rw [← cleaned_write_eq_self]
      exact ⟨fun unchanged => unchanged nofun, fun unchanged _ => unchanged⟩
    | some candidate =>
      have ended := complete_buildManifest_some maxCheckpoints
        (storage.write capture.file winner) committed
      refine ⟨_, _, ended, ?_⟩
      have changed : (⟨candidate, candidate, (storage.write capture.file winner).files⟩ : Storage) ≠ storage :=
        fun same => committed_ne_value committed (congrArg Storage.value same)
      constructor
      · intro unchanged
        exact not_not.mp fun failed => changed (unchanged failed)
      · intro passed failed
        exact absurd passed failed

/-- A capture ends, and one that fails leaves the manifests and the archives as they were exactly if it
is harmless. -/
theorem rejected_capture_unchanged (maxCheckpoints : Nat) (storage : Storage) (options : CaptureOptions)
    (raw : ArchiveFile) (optimized : Option ArchiveFile) (faults : Faults) :
    ∃ next failure, captureInterval maxCheckpoints storage options raw optimized faults =
        (next, .finished failure) ∧ ((failure ≠ none → next = storage) ↔
        ∀ capture, begin maxCheckpoints storage.value faults (.captureInterval options raw optimized) =
          .writeArchive capture → Harmless storage capture faults) := by
  rw [captureInterval, complete, advance, begin]
  cases started : storage.value.startCapture maxCheckpoints options with
  | error error =>
    refine ⟨storage, some error, complete_finished _ _ 7 (some error), ?_⟩
    constructor
    · rintro - capture ⟨⟩
    · intro _ _
      rfl
  | ok ends =>
    obtain ⟨before, after⟩ := ends
    simp only
    cases reserved : faults.first [.ownedTreeBytes, .sessionQuota, .reserve] with
    | some error =>
      refine ⟨storage, some error, complete_finished _ _ 7 (some error), ?_⟩
      constructor
      · rintro - capture ⟨⟩
      · intro _ _
        rfl
    | none =>
      obtain ⟨next, failure, ended, unchanged⟩ := complete_writeArchive maxCheckpoints
        ⟨options, raw, optimized, before, after⟩ faults (expectedGeneration_of_startCapture started)
      refine ⟨next, failure, ended, unchanged.trans ?_⟩
      constructor
      · rintro harmless _ ⟨⟩
        exact harmless
      · intro harmless
        exact harmless _ rfl

/-- The lock of the index is taken by another process when the capture reconciles its quota. -/
def busyIndex : Faults := fun point =>
  if point = .reconcile then
    some ⟨"TIMELINE_STORAGE_BUSY", "Checkpoint history metadata is busy; retry the operation"⟩
  else none

/-- The first capture of a session fails after its manifest has been committed, and the caller cannot
record the interval as unavailable any more. -/
theorem rejected_capture_committed :
    ∃ next error, captureInterval 1000 (.create (content "0a") (instant "00")) firstOptions firstArchive none
        busyIndex = (next, .finished (some error)) ∧
      next ≠ .create (content "0a") (instant "00") ∧ next.value.tip = 1 ∧ next.disk.tip = 1 ∧
      candidate 1000 next.value (.recordUnavailable firstOptions error.code error.message) =
        .error ⟨"TIMELINE_STALE_GENERATION",
          "Unavailable checkpoint belongs to a stale timeline generation"⟩ := by
  let ended := captureInterval 1000 (.create (content "0a") (instant "00")) firstOptions firstArchive none
    busyIndex
  have failed : ended.2 = .finished
      (some ⟨"TIMELINE_STORAGE_BUSY", "Checkpoint history metadata is busy; retry the operation"⟩) := by
    decide +kernel
  have value : ended.1.value.tip = 1 := by decide +kernel
  refine ⟨ended.1, _, Prod.ext rfl failed, ?_, value, by decide +kernel, by decide +kernel⟩
  intro unchanged
  rw [unchanged] at value
  cases value

end OmegaEdit.Timeline
