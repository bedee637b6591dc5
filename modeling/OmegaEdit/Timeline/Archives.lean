import OmegaEdit.Timeline.Storage

/-! Calls on one timeline session that overlap. An archive is renamed to a name that only depends
on its checkpoint, and removed by that name, so one call can remove or replace the archive that
another one has committed; and a manifest is renamed and taken over into memory in two steps,
between which another call can do the same. -/
namespace OmegaEdit.Timeline
open Transition (bind_eq_ok)
open Utf16 Threads
variable {maxCheckpoints : Nat} {storage shared : Storage} {faults : Faults} {capture : Capture}
  {winner : ArchiveFile} {optimized : Bool} {manifest candidate : Manifest} {entry : Interval}
  {archive : Archive} {file : ArchiveFile} {name : Text} {task moved other : Task}

/-- The file is the archive that an entry tells about. -/
structure Matches (entry : Interval) (archive : Archive) (file : ArchiveFile) : Prop where
  byteLength : file.byteLength = archive.byteLength
  sha256 : file.sha256 = archive.sha256
  before : file.before = entry.before
  after : file.after = entry.after

/-- Every archive that a manifest lists is there. -/
def Backed (files : Text → Option ArchiveFile) (manifest : Manifest) : Prop :=
  ∀ entry ∈ manifest.intervals, ∀ archive, entry.state = .ready archive →
    ∃ file, files archive.file = some file ∧ Matches entry archive file

/-- The manifest on disk is the one in memory, is valid, and every interval that it lists as ready can be
opened. -/
structure Intact (storage : Storage) : Prop where
  same : storage.disk = storage.value
  parsed : parseManifest storage.disk = .ok ()
  opens : ∀ entry ∈ storage.disk.intervals, ∀ archive, entry.state = .ready archive →
    ∃ file, storage.files archive.file = some file ∧ file.byteLength = archive.byteLength ∧
      file.sha256 = archive.sha256 ∧ openInterval storage entry.checkpoint = .ok file

/-- The name whose archive a capture has put there and not yet committed. -/
def Task.holding : Task → Option Text
  | .buildManifest capture _ _ => some capture.file
  | .storeManifest (.captureInterval capture _) _ => some capture.file
  | _ => none

/-- The manifest on disk does not list the file, and no other capture is about to. -/
def Free (system : System Storage Task) (index : Nat) (name : Text) : Prop :=
  name ∉ archiveFiles system.shared.disk.intervals ∧
    ∀ place < system.tasks.length, place ≠ index → (system.tasks[place]?).bind Task.holding ≠ some name

/-- The intervals of a manifest without the one that a capture adds. -/
def Origin.older (candidate : Manifest) : Origin → List Interval
  | .captureInterval _ _ => candidate.intervals.dropLast
  | _ => candidate.intervals

def Interval.isReady (entry : Interval) : Bool :=
  match entry.state with
  | .ready _ => true
  | .unavailable _ _ => false

def Task.isAssigning : Task → Bool
  | .assignValue _ _ => true
  | _ => false

/-- The call is about to take over a manifest that it has stored. -/
def Task.assigns (manifest : Manifest) : Task → Bool
  | .assignValue _ candidate => candidate = manifest
  | _ => false

/-- An archive is only put or removed where it is nobody else's; a manifest that is renamed does not
bring back an interval that the one on disk does not list; and one that is taken over is on disk, or
that one is still to be taken over. -/
def Undisturbed (system : System Storage Task) : Event Request Faults → Prop
  | .spawn _ => True
  | .advance index faults =>
    match system.tasks[index]? with
    | some (.renameArchive capture _ _) =>
      faults.first [.winnerRename, .renameArchive] = none → Free system index capture.file
    | some (.storeManifest origin candidate) =>
      faults.first (origin.points ++ commitPoints) = none →
        ∀ entry ∈ origin.older candidate, entry.isReady → entry ∈ system.shared.disk.intervals
    | some (.assignValue _ candidate) =>
      candidate = system.shared.disk ∨ ∃ place < system.tasks.length, place ≠ index ∧
          (system.tasks[place]?).any (Task.assigns system.shared.disk)
    | some (.removeArchives (file :: _)) => faults.first [.removeArchive] = none → Free system index file
    | some (.cleanUp capture false _) =>
      faults.first [.removeArchive] = none → Free system index capture.file
    | _ => True

section Spec

/-- What the winner of a capture is checked for. -/
def Valid (capture : Capture) (winner : ArchiveFile) : Prop :=
  winner.before = capture.before ∧ winner.after = capture.after

lemma validateCandidate_eq_ok {before after : Fingerprint} {count : Text}
    (valid : validateCandidate file before after count = .ok ()) : file.before = before ∧ file.after = after := by
  rw [validateCandidate] at valid
  obtain ⟨passed, -⟩ := ChangeLog.guard_eq_ok.mp valid
  simp only [Bool.or_eq_true, not_or, Bool.not_eq_true', Bool.not_eq_false, fingerprintsEqual_iff] at passed
  exact ⟨passed.1.2, passed.2⟩

lemma valid_of_writeArchive (written : capture.writeArchive faults = .ok (winner, optimized)) :
    Valid capture winner := by
  rw [Capture.writeArchive] at written
  split at written
  · cases written
  · split at written
    · cases written
    · rename_i valid
      split at written
      · cases written
      · split at written
        · rename_i other found
          cases written
          rw [Capture.optimizedWinner] at found
          split at found
          · obtain ⟨-, passed⟩ := Option.filter_eq_some_iff.mp found
            rw [decide_eq_true_eq] at passed
            exact validateCandidate_eq_ok passed.2.1
          · cases found
        · cases written
          exact validateCandidate_eq_ok valid

lemma matches_of_readyEntry (valid : Valid capture winner)
    (built : Manifest.readyEntry capture.options capture.before capture.after winner optimized = .ok entry)
    (ready : entry.state = .ready archive) : archive.file = capture.file ∧ Matches entry archive winner := by
  rw [Manifest.readyEntry, Manifest.entry] at built
  obtain ⟨count, -, built⟩ := bind_eq_ok.mp built
  obtain ⟨-, -, built⟩ := bind_eq_ok.mp built
  cases built
  cases ready
  exact ⟨rfl, rfl, rfl, valid.1, valid.2⟩

lemma mem_archiveFiles {intervals : List Interval} (listed : entry ∈ intervals)
    (ready : entry.state = .ready archive) : archive.file ∈ archiveFiles intervals := by
  refine List.mem_filterMap.mpr ⟨entry, listed, ?_⟩
  rw [ready]

/-- Writing or removing a file that a manifest does not list keeps all that it lists. -/
lemma Backed.update (backed : Backed storage.files manifest) (unlisted : name ∉ archiveFiles manifest.intervals)
    (file : Option ArchiveFile) : Backed (Function.update storage.files name file) manifest := by
  intro entry listed archive ready
  obtain ⟨found, there, same⟩ := backed entry listed archive ready
  refine ⟨found, ?_, same⟩
  rw [Function.update_of_ne]
  · exact there
  · rintro rfl
    exact unlisted (mem_archiveFiles listed ready)

lemma checkIntervals_spec {index : Nat} {previous : Fingerprint} {intervals : List Interval}
    (checked : checkIntervals index previous intervals = .ok ()) {place : Nat}
    (found : intervals[place]? = some entry) :
    entry.checkpoint = index + place + 1 ∧
      ∀ archive, entry.state = .ready archive → isIntervalFile archive.file = true := by
  induction intervals generalizing index previous place with
  | nil => cases found
  | cons head rest ih =>
    rw [checkIntervals] at checked
    obtain ⟨_, checkedHead, checked⟩ := bind_eq_ok.mp checked
    cases place with
    | succ place =>
      have := ih checked found
      rwa [Nat.add_right_comm index 1 place] at this
    | zero =>
      cases found
      rw [checkInterval] at checkedHead
      obtain ⟨numbered, checkedHead⟩ := ChangeLog.guard_eq_ok.mp checkedHead
      obtain ⟨before, -, checkedHead⟩ := bind_eq_ok.mp checkedHead
      obtain ⟨after, -, checkedHead⟩ := bind_eq_ok.mp checkedHead
      obtain ⟨_, _, checkedHead⟩ := bind_eq_ok.mp checkedHead
      obtain ⟨-, checkedHead⟩ := ChangeLog.guard_eq_ok.mp checkedHead
      obtain ⟨-, checkedHead⟩ := ChangeLog.guard_eq_ok.mp checkedHead
      refine ⟨by omega, fun archive ready => ?_⟩
      rw [ready] at checkedHead
      obtain ⟨_, checkedArchive, _⟩ := bind_eq_ok.mp checkedHead
      rw [checkArchive] at checkedArchive
      obtain ⟨named, -⟩ := ChangeLog.guard_eq_ok.mp checkedArchive
      simpa using named

lemma parseManifest_spec (parsed : parseManifest manifest = .ok ()) {place : Nat}
    (found : manifest.intervals[place]? = some entry) :
    entry.checkpoint = place + 1 ∧
      ∀ archive, entry.state = .ready archive → isIntervalFile archive.file = true := by
  rw [parseManifest] at parsed
  obtain ⟨-, parsed⟩ := ChangeLog.guard_eq_ok.mp parsed
  obtain ⟨original, -, parsed⟩ := bind_eq_ok.mp parsed
  obtain ⟨_, checked, _⟩ := bind_eq_ok.mp parsed
  have spec := checkIntervals_spec checked found
  rwa [Nat.zero_add] at spec

lemma openInterval_eq_ok (parsed : parseManifest storage.value = .ok ()) {place : Nat}
    (found : storage.value.intervals[place]? = some entry) (ready : entry.state = .ready archive)
    (there : storage.files archive.file = some file) (same : Matches entry archive file) :
    openInterval storage entry.checkpoint = .ok file := by
  obtain ⟨numbered, named⟩ := parseManifest_spec parsed found
  have before : fingerprintsEqual file.before entry.before = true := fingerprintsEqual_iff.mpr same.before
  have after : fingerprintsEqual file.after entry.after = true := fingerprintsEqual_iff.mpr same.after
  rw [openInterval, numbered]
  simp only [Nat.add_one_ne_zero, if_false, Nat.add_sub_cancel, found, ready, named archive ready, there,
    same.byteLength, same.sha256, before, after]
  simp

lemma intact_of_backed (same : storage.disk = storage.value) (parsed : parseManifest storage.disk = .ok ())
    (backed : Backed storage.files storage.disk) : Intact storage := by
  refine ⟨same, parsed, fun entry listed archive ready => ?_⟩
  obtain ⟨file, there, matching⟩ := backed entry listed archive ready
  obtain ⟨place, found⟩ := List.getElem?_of_mem listed
  rw [same] at found parsed
  exact ⟨file, there, matching.byteLength, matching.sha256,
    openInterval_eq_ok parsed found ready there matching⟩

end Spec

section Invariant

/-- The manifest on disk is valid and backed, and it is in memory or about to be taken over. -/
structure Consistent (system : System Storage Task) : Prop where
  parsed : parseManifest system.shared.disk = .ok ()
  backed : Backed system.shared.files system.shared.disk
  settles : system.shared.disk = system.shared.value ∨
    ∃ place : Nat, ∃ origin, system.tasks[place]? = some (.assignValue origin system.shared.disk)

/-- What a call relies on: the archive of a capture is valid, and in its place once it is there; and a
manifest to be stored is valid and has at most the capture's own archive in addition. -/
def Relies (storage : Storage) : Task → Prop
  | .renameArchive capture winner _ => Valid capture winner
  | .buildManifest capture winner _ => Valid capture winner ∧ storage.files capture.file = some winner
  | .storeManifest (.captureInterval capture winner) candidate =>
    parseManifest candidate = .ok () ∧ Valid capture winner ∧ storage.files capture.file = some winner ∧
      ∃ base entry optimized, candidate = (Manifest.append base entry).touch capture.options.updatedAt ∧
        Manifest.readyEntry capture.options capture.before capture.after winner optimized = .ok entry
  | .storeManifest _ candidate => parseManifest candidate = .ok ()
  | _ => True

/-- Two captures do not hold the same file. -/
def Apart (task other : Task) : Prop := ∀ name, task.holding = some name → other.holding ≠ some name

lemma Apart.symm (apart : Apart task other) : Apart other task :=
  fun name holds held => apart name held holds

lemma apart_of_none (idle : task.holding = none) : Apart task other := by
  intro name holds
  rw [idle] at holds
  cases holds

/-- A call that holds no file relies on nothing that others can change. -/
lemma Relies.frame (relies : Relies storage task)
    (kept : ∀ name, task.holding = some name → shared.files name = storage.files name) :
    Relies shared task := by
  cases task with
  | buildManifest capture winner optimized => exact ⟨relies.1, (kept _ rfl).trans relies.2⟩
  | storeManifest origin candidate =>
    cases origin with
    | captureInterval capture winner =>
      obtain ⟨parsed, valid, there, built⟩ := relies
      exact ⟨parsed, valid, (kept _ rfl).trans there, built⟩
    | _ =>
      exact relies
  | _ => exact relies

lemma commit_spec {origin : Origin} {call : Call}
    (other : ∀ capture winner, origin ≠ .captureInterval capture winner) :
    Relies shared (begin.commit maxCheckpoints manifest origin call) ∧
      (begin.commit maxCheckpoints manifest origin call).holding = none := by
  rw [begin.commit]
  split
  · exact ⟨trivial, rfl⟩
  · split
    · exact ⟨trivial, rfl⟩
    · rename_i parsed
      cases origin with
      | captureInterval capture winner => exact absurd rfl (other capture winner)
      | _ => exact ⟨parsed, rfl⟩

lemma begin_spec (request : Request) :
    Relies shared (begin maxCheckpoints manifest faults request) ∧
      (begin maxCheckpoints manifest faults request).holding = none := by
  cases request with
  | captureInterval options raw optimized =>
    rw [begin]
    split
    · exact ⟨trivial, rfl⟩
    · split
      · exact ⟨trivial, rfl⟩
      · exact ⟨trivial, rfl⟩
  | _ =>
    rw [begin]
    refine commit_spec ?_
    intro capture winner same
    cases same

/-- The system stays in order when a call moves on. -/
abbrev Orderly := Keeps Consistent Relies Apart

variable {system : System Storage Task} {index : Nat}

lemma Free.apart (free : Free system index name) (holding : moved.holding = some name) {place : Nat}
    (elsewhere : place ≠ index) (there : system.tasks[place]? = some other) : Apart moved other := by
  intro held same
  rw [holding] at same
  cases same
  intro otherHolds
  refine free.2 place (List.getElem?_eq_some_iff.mp there).1 elsewhere ?_
  rw [there]
  exact otherHolds

/-- The manifest that a call stores is backed if its older intervals are listed on disk. -/
lemma backed_of_older {origin : Origin} (relies : Relies storage (.storeManifest origin candidate))
    (backed : Backed storage.files storage.disk)
    (listed : ∀ entry ∈ origin.older candidate, entry.isReady → entry ∈ storage.disk.intervals) :
    Backed storage.files candidate := by
  have older : ∀ entry ∈ origin.older candidate, ∀ archive, entry.state = .ready archive →
      ∃ file, storage.files archive.file = some file ∧ Matches entry archive file := by
    intro entry there archive ready
    refine backed entry (listed entry there ?_) archive ready
    rw [Interval.isReady, ready]
  cases origin with
  | captureInterval capture winner =>
    obtain ⟨-, valid, there, base, entry, optimized, rfl, built⟩ := relies
    intro interval listed archive ready
    rcases List.mem_append.mp listed with old | new
    · refine older interval ?_ archive ready
      rw [Origin.older, Manifest.touch, Manifest.append, List.dropLast_concat]
      exact old
    · cases List.mem_singleton.mp new
      obtain ⟨named, matching⟩ := matches_of_readyEntry valid built ready
      exact ⟨winner, by rw [named, there], matching⟩
  | _ =>
    exact older

lemma Task.assigns_eq_true :
    task.assigns manifest = true ↔ ∃ origin, task = .assignValue origin manifest := by
  cases task with
  | assignValue origin candidate =>
    rw [Task.assigns, decide_eq_true_eq]
    constructor
    · rintro rfl
      exact ⟨origin, rfl⟩
    · rintro ⟨_, ⟨⟩⟩
      rfl
  | _ =>
    constructor
    · intro assigns
      cases assigns
    · rintro ⟨_, ⟨⟩⟩

variable (holds : Holds Consistent Relies Apart system)
include holds

/-- A call that changes neither manifest, and no file that is listed or held by others. -/
lemma Orderly.of_files (found : system.tasks[index]? = some task) (idle : task.isAssigning = false)
    {files : Text → Option ArchiveFile} (backed : Backed files system.shared.disk)
    (held : ∀ (place : Nat) other, place ≠ index → system.tasks[place]? = some other →
      ∀ name, other.holding = some name → files name = system.shared.files name)
    (relies : Relies { system.shared with files } moved)
    (apart : ∀ (place : Nat) other, place ≠ index → system.tasks[place]? = some other → Apart moved other) :
    Orderly system index { system.shared with files } moved := by
  refine ⟨⟨holds.whole.parsed, backed, ?_⟩, relies, ?_⟩
  · rcases holds.whole.settles with same | ⟨place, origin, assigns⟩
    · exact .inl same
    · refine .inr ⟨place, origin, ?_⟩
      have otherPlace : index ≠ place := by
        rintro rfl
        rw [found] at assigns
        cases assigns
        cases idle
      rw [List.getElem?_set_ne otherPlace]
      exact assigns
  · intro place other elsewhere there
    exact ⟨(holds.each place other there).frame (held place other elsewhere there),
      apart place other elsewhere there⟩

lemma Orderly.of_same (found : system.tasks[index]? = some task) (idle : task.isAssigning = false)
    (relies : Relies system.shared moved) (nothing : moved.holding = none) :
    Orderly system index system.shared moved :=
  .of_files holds found idle holds.whole.backed (fun _ _ _ _ _ _ => rfl) relies
    fun _ _ _ _ => apart_of_none nothing

lemma Orderly.of_free (found : system.tasks[index]? = some task) (idle : task.isAssigning = false)
    (free : Free system index name) (file : Option ArchiveFile)
    (relies : Relies { system.shared with files := Function.update system.shared.files name file } moved)
    (apart : ∀ (place : Nat) other, place ≠ index → system.tasks[place]? = some other → Apart moved other) :
    Orderly system index { system.shared with files := Function.update system.shared.files name file }
      moved := by
  refine .of_files holds found idle (holds.whole.backed.update free.1 file) ?_ relies apart
  intro place other elsewhere there held holding
  refine Function.update_of_ne ?_ _ _
  rintro rfl
  refine free.2 place (List.getElem?_eq_some_iff.mp there).1 elsewhere ?_
  rw [there]
  exact holding

lemma orderly_renameArchive (found : system.tasks[index]? = some (.renameArchive capture winner optimized))
    (undisturbed : faults.first [.winnerRename, .renameArchive] = none → Free system index capture.file)
    (ran : advance maxCheckpoints system.shared (.renameArchive capture winner optimized) faults =
      some (shared, moved)) : Orderly system index shared moved := by
  rw [advance] at ran
  split at ran
  · cases ran
    exact .of_same holds found rfl trivial rfl
  · rename_i passed
    cases ran
    have valid : Valid capture winner := holds.each index _ found
    refine .of_free holds found rfl (undisturbed passed) (some winner) ⟨valid, ?_⟩ ?_
    · exact Function.update_self capture.file (some winner) system.shared.files
    · intro place other elsewhere there
      exact (undisturbed passed).apart rfl elsewhere there

lemma orderly_buildManifest (found : system.tasks[index]? = some (.buildManifest capture winner optimized))
    (ran : advance maxCheckpoints system.shared (.buildManifest capture winner optimized) faults =
      some (shared, moved)) : Orderly system index shared moved := by
  rw [advance] at ran
  split at ran
  · cases ran
    exact .of_same holds found rfl trivial rfl
  · split at ran
    · cases ran
      exact .of_same holds found rfl trivial rfl
    · rename_i candidate built
      cases ran
      have valid : Valid capture winner := (holds.each index _ found).1
      have there : system.shared.files capture.file = some winner := (holds.each index _ found).2
      rw [Capture.buildManifest] at built
      obtain ⟨entry, made, built⟩ := bind_eq_ok.mp built
      obtain ⟨_, parsed, built⟩ := bind_eq_ok.mp built
      cases built
      refine .of_files holds found rfl holds.whole.backed (fun _ _ _ _ _ _ => rfl)
        ⟨parsed, valid, there, system.shared.value, entry, optimized, rfl, made⟩ ?_
      -- the capture held the file before, too
      intro place other elsewhere occupied
      have apart := holds.pair index place _ other (Ne.symm elsewhere) found occupied
      exact apart

lemma orderly_storeManifest {origin : Origin}
    (found : system.tasks[index]? = some (.storeManifest origin candidate))
    (undisturbed : faults.first (origin.points ++ commitPoints) = none →
      ∀ entry ∈ origin.older candidate, entry.isReady → entry ∈ system.shared.disk.intervals)
    (ran : advance maxCheckpoints system.shared (.storeManifest origin candidate) faults =
      some (shared, moved)) : Orderly system index shared moved := by
  have relies := holds.each index _ found
  rw [advance] at ran
  split at ran
  · cases ran
    cases origin with
    | _ => exact .of_same holds found rfl trivial rfl
  · rename_i passed
    cases ran
    have parsed : parseManifest candidate = .ok () := by
      cases origin with
      | captureInterval capture winner => exact relies.1
      | _ => exact relies
    have backed := backed_of_older relies holds.whole.backed (undisturbed passed)
    refine ⟨⟨parsed, backed, .inr ⟨index, origin, ?_⟩⟩, trivial, ?_⟩
    · exact List.getElem?_set_self (List.getElem?_eq_some_iff.mp found).1
    · intro place other elsewhere there
      exact ⟨(holds.each place other there).frame fun _ _ => rfl, apart_of_none rfl⟩

lemma orderly_assignValue {origin : Origin}
    (undisturbed : candidate = system.shared.disk ∨ ∃ place < system.tasks.length, place ≠ index ∧
      (system.tasks[place]?).any (Task.assigns system.shared.disk) = true)
    (ran : advance maxCheckpoints system.shared (.assignValue origin candidate) faults =
      some (shared, moved)) : Orderly system index shared moved := by
  cases ran
  have proceeds : Relies { system.shared with value := candidate } origin.proceed ∧
      origin.proceed.holding = none := by
    cases origin with
    | _ => exact ⟨trivial, rfl⟩
  refine ⟨⟨holds.whole.parsed, holds.whole.backed, ?_⟩, proceeds.1, ?_⟩
  · rcases undisturbed with rfl | ⟨place, inside, elsewhere, assigns⟩
    · exact .inl rfl
    · right
      cases there : system.tasks[place]? with
      | none =>
        rw [there] at assigns
        cases assigns
      | some task =>
        rw [there] at assigns
        obtain ⟨origin, rfl⟩ := Task.assigns_eq_true.mp assigns
        refine ⟨place, origin, ?_⟩
        rw [List.getElem?_set_ne (Ne.symm elsewhere)]
        exact there
  · intro place other elsewhere there
    exact ⟨(holds.each place other there).frame fun _ _ => rfl, apart_of_none proceeds.2⟩

/-- Every step that is not disturbed keeps the system in order. -/
lemma orderly_advance (found : system.tasks[index]? = some task)
    (undisturbed : Undisturbed system (.advance index faults))
    (ran : advance maxCheckpoints system.shared task faults = some (shared, moved)) :
    Orderly system index shared moved := by
  rw [Undisturbed, found] at undisturbed
  cases task with
  | begin request =>
    cases ran
    obtain ⟨relies, nothing⟩ := begin_spec request
    exact .of_same holds found rfl relies nothing
  | writeArchive capture =>
    rw [advance] at ran
    split at ran
    · cases ran
      exact .of_same holds found rfl trivial rfl
    · rename_i winner optimized written
      split at ran
      · cases ran
        exact .of_same holds found rfl trivial rfl
      · cases ran
        exact .of_same holds found rfl (valid_of_writeArchive written) rfl
  | renameArchive capture winner optimized => exact orderly_renameArchive holds found undisturbed ran
  | buildManifest capture winner optimized => exact orderly_buildManifest holds found ran
  | storeManifest origin candidate => exact orderly_storeManifest holds found undisturbed ran
  | assignValue origin candidate => exact orderly_assignValue holds undisturbed ran
  | removeArchives files =>
    cases files with
    | nil =>
      cases ran
      exact .of_same holds found rfl trivial rfl
    | cons file files =>
      rw [advance] at ran
      split at ran
      · cases ran
        exact .of_same holds found rfl trivial rfl
      · rename_i passed
        cases ran
        exact .of_free holds found rfl (undisturbed passed) none trivial fun _ _ _ _ => apart_of_none rfl
  | reconcile origin =>
    cases origin with
    | _ =>
      cases ran
      exact .of_same holds found rfl trivial rfl
  | cleanUp capture committed failure =>
    rw [advance] at ran
    split at ran
    · rename_i removes
      cases ran
      rw [Bool.and_eq_true, Bool.not_eq_true', decide_eq_true_eq] at removes
      obtain ⟨rfl, passed⟩ := removes
      exact .of_free holds found rfl (undisturbed passed) none trivial fun _ _ _ _ => apart_of_none rfl
    · cases ran
      exact .of_same holds found rfl trivial rfl
  | finished failure => cases ran

end Invariant

lemma decimal_eq_ok {text result : Text} {name : String} (counted : decimal text name = .ok result) :
    result = text := by
  rw [decimal] at counted
  split at counted
  · cases counted
  · obtain ⟨-, counted⟩ := ChangeLog.guard_eq_ok.mp counted
    cases counted
    rfl

lemma normalizeFingerprint_input {input : FingerprintInput} {fingerprint : Fingerprint}
    (normalized : normalizeFingerprint input = .ok fingerprint) :
    normalizeFingerprint fingerprint.input = .ok fingerprint := by
  rw [normalizeFingerprint] at normalized
  obtain ⟨byteLength, counted, normalized⟩ := bind_eq_ok.mp normalized
  obtain ⟨safe, normalized⟩ := ChangeLog.guard_eq_ok.mp normalized
  cases normalized
  cases decimal_eq_ok counted
  rw [normalizeFingerprint]
  exact bind_eq_ok.mpr ⟨_, counted, ChangeLog.guard_eq_ok.mpr ⟨safe, rfl⟩⟩

lemma consistent_create {input : FingerprintInput} {original : Fingerprint}
    (normalized : normalizeFingerprint input = .ok original) (updatedAt : Text) :
    Consistent ⟨.create original updatedAt, []⟩ := by
  refine ⟨?_, ?_, .inl rfl⟩
  · have again := normalizeFingerprint_input normalized
    rw [parseManifest]
    refine ChangeLog.guard_eq_ok.mpr ⟨by simp [Storage.create, Manifest.initial], ?_⟩
    exact bind_eq_ok.mpr ⟨original, again,
      bind_eq_ok.mpr ⟨(), rfl, bind_eq_ok.mpr ⟨original, again, rfl⟩⟩⟩
  · intro entry listed
    cases listed

lemma Consistent.spawned {system : System Storage Task} (consistent : Consistent system) (added : Task) :
    Consistent ⟨system.shared, system.tasks ++ [added]⟩ := by
  refine ⟨consistent.parsed, consistent.backed, ?_⟩
  rcases consistent.settles with same | ⟨place, origin, assigns⟩
  · exact .inl same
  · refine .inr ⟨place, origin, ?_⟩
    rw [List.getElem?_append_left (List.getElem?_eq_some_iff.mp assigns).1]
    exact assigns

/-- As long as no call disturbs another one, whenever none is in progress the manifest on disk is the
one in memory, and all archives that it lists are there. -/
theorem archives_intact (maxCheckpoints : Nat) {input : FingerprintInput} {original : Fingerprint}
    (normalized : normalizeFingerprint input = .ok original) (updatedAt : Text) {system : System Storage Task}
    (reached : Transition.Reaches (step Task.begin (advance maxCheckpoints)) Undisturbed
      ⟨.create original updatedAt, []⟩ system)
    (idle : ∀ task ∈ system.tasks, ∃ failure, task = .finished failure) : Intact system.shared := by
  have holds : Holds Consistent Relies Apart system := by
    refine Holds.reached reached Apart.symm (.empty (consistent_create normalized updatedAt)) ?_ ?_
    · intro system call holds _
      exact ⟨holds.whole.spawned _, trivial, fun _ _ => apart_of_none rfl⟩
    · intro system index outcome task shared moved holds undisturbed found ran
      exact orderly_advance holds found undisturbed ran
  refine intact_of_backed ?_ holds.whole.parsed holds.whole.backed
  rcases holds.whole.settles with same | ⟨place, origin, assigns⟩
  · exact same
  · obtain ⟨failure, ended⟩ := idle _ (List.mem_of_getElem? assigns)
    cases ended

def firstCapture : Request :=
  .captureInterval firstOptions firstArchive none

def noFaults : Faults := fun _ => none

def Task.isFinished : Task → Bool
  | .finished _ => true
  | _ => false

lemma Task.isFinished_eq_true : task.isFinished = true ↔ ∃ failure, task = .finished failure := by
  cases task with
  | finished failure => exact ⟨fun _ => ⟨failure, rfl⟩, fun _ => rfl⟩
  | _ =>
    constructor
    · intro finished
      cases finished
    · rintro ⟨_, ⟨⟩⟩

/-- The same interval is captured twice: the second call finds the generation changed after the first
one has committed, and removes the archive of that one. -/
theorem second_capture_removes_archive :
    ∃ system, Transition.Reaches (step Task.begin (advance 1000)) (fun _ _ => True)
        ⟨.create (content "0a") (instant "00"), []⟩ system ∧
      (∀ task ∈ system.tasks, ∃ failure, task = .finished failure) ∧ ¬ Intact system.shared := by
  obtain ⟨system, reached, shows⟩ := Transition.exists_reaches (step Task.begin (advance 1000))
    (fun _ _ => True) ⟨.create (content "0a") (instant "00"), []⟩
    (fun system => system.tasks.all Task.isFinished && system.shared.disk.intervals.any fun entry =>
      entry.isReady && !(openInterval system.shared entry.checkpoint).isOk)
    ([.spawn firstCapture, .spawn firstCapture, .advance 0 noFaults, .advance 1 noFaults] ++
      List.replicate 7 (.advance 0 noFaults) ++ List.replicate 2 (.advance 1 noFaults)) (by decide +kernel)
  rw [Bool.and_eq_true, List.all_eq_true, List.any_eq_true] at shows
  obtain ⟨idle, entry, listed, lost⟩ := shows
  refine ⟨system, reached, fun task there => Task.isFinished_eq_true.mp (idle task there), ?_⟩
  intro intact
  cases state : entry.state with
  | unavailable code message => simp [Interval.isReady, state] at lost
  | ready archive =>
    obtain ⟨file, -, -, -, opened⟩ := intact.opens entry listed archive state
    simp [opened, Except.isOk, Except.toBool] at lost

instance (system : System Storage Task) (index : Nat) (name : Text) : Decidable (Free system index name) :=
  inferInstanceAs (Decidable (_ ∧ _))

instance (system : System Storage Task) (event : Event Request Faults) :
    Decidable (Undisturbed system event) := by
  unfold Undisturbed
  split
  · infer_instance
  · split <;> infer_instance

/-- The cursor is set while an interval is captured, and both calls succeed. -/
theorem archives_intact_overlapping :
    ∃ system, Transition.Reaches (step Task.begin (advance 1000)) Undisturbed
        ⟨.create (content "0a") (instant "00"), []⟩ system ∧
      system.shared.disk.intervals.any Interval.isReady ∧ Intact system.shared := by
  obtain ⟨system, reached, shows⟩ := Transition.exists_reaches (step Task.begin (advance 1000)) Undisturbed
    ⟨.create (content "0a") (instant "00"), []⟩
    (fun system => system.tasks.all Task.isFinished && system.shared.disk.intervals.any Interval.isReady)
    ([.spawn firstCapture, .spawn (.setCursor 0 (instant "02"))] ++ List.replicate 3 (.advance 0 noFaults) ++
      List.replicate 3 (.advance 1 noFaults) ++ List.replicate 5 (.advance 0 noFaults)) (by decide +kernel)
  rw [Bool.and_eq_true, List.all_eq_true] at shows
  refine ⟨system, reached, shows.2, ?_⟩
  have normalized : normalizeFingerprint (contentInput "0a") = .ok (content "0a") := by decide +kernel
  exact archives_intact 1000 normalized _ reached
    fun task there => Task.isFinished_eq_true.mp (shows.1 task there)

end OmegaEdit.Timeline
