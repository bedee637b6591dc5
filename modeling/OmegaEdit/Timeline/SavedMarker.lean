import OmegaEdit.Timeline.Manifest

/-! The saved marker of a timeline: whether the content that was saved is that of a retained
boundary, and which boundary that is. The same content can occur at several boundaries, and
only one of them is kept in the marker. -/
namespace OmegaEdit.Timeline
open Transition (bind_eq_ok)
variable {checkpoint cursor : Nat} {updatedAt : Utf16.Text} {fingerprint : Fingerprint}
  {interval : Interval} {options : CaptureOptions} {found : Fingerprint × Fingerprint}

/-- A call that succeeds. -/
def commit (maxCheckpoints : Nat) (manifest : Manifest) (call : Call) :
    Except TimelineStorageError (Manifest × Unit) := do
  let next ← candidate maxCheckpoints manifest call
  parseManifest next
  .ok (next, ())

/-- The fingerprint at a boundary. -/
def boundary (manifest : Manifest) : Nat → Option Fingerprint
  | 0 => some manifest.original
  | index + 1 => (manifest.intervals[index]?).map Interval.after

/-- The content with the fingerprint is that of a retained boundary. -/
def Retained (manifest : Manifest) (fingerprint : Fingerprint) : Prop :=
  fingerprint = manifest.original ∨ ∃ entry ∈ manifest.intervals, entry.after = fingerprint

/-- The marker is off the branch exactly if no retained boundary has the saved content, and a boundary
that it names has. -/
structure Truthful (manifest : Manifest) : Prop where
  onBranch : manifest.saved.offBranch = false ↔ Retained manifest manifest.saved.fingerprint
  named : ∀ checkpoint, manifest.saved.checkpoint = some checkpoint →
    boundary manifest checkpoint = some manifest.saved.fingerprint

/-- A truncation that cuts off the boundary in the marker leaves no other one with the saved content. -/
def KeepsMarker (manifest : Manifest) : Call → Prop
  | .truncateFuture cursor _ =>
    (∃ checkpoint ∈ manifest.saved.checkpoint, cursor < checkpoint) →
      manifest.saved.fingerprint ≠ manifest.original ∧
        ∀ entry ∈ manifest.intervals.take cursor.toNat, entry.after ≠ manifest.saved.fingerprint
  | _ => True

/-- What holds of every manifest whose marker is truthful so far. -/
structure Marked (manifest : Manifest) : Prop where
  truthful : Truthful manifest
  offBranch : manifest.saved.offBranch = manifest.saved.checkpoint.isNone
  contiguous : ∀ index entry, manifest.intervals[index]? = some entry → entry.checkpoint = index + 1
  tip : manifest.tip = manifest.intervals.length

section Marker
variable {manifest : Manifest}

lemma retained_of_boundary (found : boundary manifest checkpoint = some fingerprint) :
    Retained manifest fingerprint := by
  cases checkpoint with
  | zero => exact .inl (Option.some.inj found).symm
  | succ index =>
    obtain ⟨entry, there, rfl⟩ := Option.map_eq_some_iff.mp found
    exact .inr ⟨entry, List.mem_of_getElem? there, rfl⟩

/-- The new interval is the last boundary; the others stay. -/
lemma boundary_append (found : boundary manifest checkpoint = some fingerprint) :
    boundary (manifest.append interval) checkpoint = some fingerprint := by
  cases checkpoint with
  | zero => exact found
  | succ index =>
    obtain ⟨entry, there, rfl⟩ := Option.map_eq_some_iff.mp found
    have within := (List.getElem?_eq_some_iff.mp there).1
    rw [boundary, Manifest.append, List.getElem?_append_left within, there]
    rfl

lemma boundary_append_last (interval : Interval) :
    boundary (manifest.append interval) (manifest.intervals.length + 1) = some interval.after := by
  rw [boundary, Manifest.append, List.getElem?_concat_length]
  rfl

lemma retained_append :
    Retained (manifest.append interval) fingerprint ↔
      Retained manifest fingerprint ∨ interval.after = fingerprint := by
  simp only [Retained, Manifest.append, List.mem_append, List.mem_singleton, or_and_right, exists_or,
    exists_eq_left, or_assoc]

lemma Marked.append (marked : Marked manifest) (follows : interval.checkpoint = manifest.tip + 1) :
    Marked (manifest.append interval) := by
  have place : interval.checkpoint = manifest.intervals.length + 1 := by rw [follows, marked.tip]
  have contiguous : ∀ index entry, (manifest.append interval).intervals[index]? = some entry →
      entry.checkpoint = index + 1 := by
    intro index entry found
    rw [Manifest.append] at found
    rcases lt_or_ge index manifest.intervals.length with inside | outside
    · rw [List.getElem?_append_left inside] at found
      exact marked.contiguous index entry found
    · rw [List.getElem?_append_right outside, List.getElem?_singleton] at found
      split at found
      · cases found
        omega
      · cases found
  have tip : (manifest.append interval).tip = (manifest.append interval).intervals.length := by
    rw [Manifest.append, List.length_append, List.length_singleton]
    exact place
  by_cases same : interval.after = manifest.saved.fingerprint
  · have saved : (manifest.append interval).saved =
        { manifest.saved with checkpoint := some interval.checkpoint, offBranch := false } :=
      if_pos (fingerprintsEqual_iff.mpr same)
    refine ⟨⟨?_, ?_⟩, ?_, contiguous, tip⟩
    · rw [saved, retained_append]
      exact ⟨fun _ => .inr same, fun _ => rfl⟩
    · rw [saved]
      rintro checkpoint ⟨⟩
      rw [place, boundary_append_last, same]
    · rw [saved]
      rfl
  · have saved : (manifest.append interval).saved = manifest.saved :=
      if_neg (mt fingerprintsEqual_iff.mp same)
    refine ⟨⟨?_, ?_⟩, ?_, contiguous, tip⟩
    · rw [saved, retained_append, or_iff_left same]
      exact marked.truthful.onBranch
    · rw [saved]
      intro checkpoint named
      exact boundary_append (marked.truthful.named checkpoint named)
    · rw [saved]
      exact marked.offBranch

lemma boundary_truncate (kept : checkpoint ≤ cursor) :
    boundary (manifest.truncate cursor) checkpoint = boundary manifest checkpoint := by
  cases checkpoint with
  | zero => rfl
  | succ index =>
    rw [boundary, boundary, Manifest.truncate, List.getElem?_take_of_lt (by omega)]

lemma retained_of_truncate (retained : Retained (manifest.truncate cursor) fingerprint) :
    Retained manifest fingerprint := by
  rcases retained with original | ⟨entry, mem, same⟩
  · exact .inl original
  · exact .inr ⟨entry, List.mem_of_mem_take mem, same⟩

/-- A truncation behind the boundary in the marker, if it names one, leaves the marker as it is. -/
lemma saved_truncate_of_kept (kept : ∀ checkpoint ∈ manifest.saved.checkpoint, checkpoint ≤ cursor) :
    (manifest.truncate cursor).saved = manifest.saved := by
  obtain ⟨_, original, ⟨fingerprint, named, offBranch⟩, _, _, _, _⟩ := manifest
  cases named with
  | none => rfl
  | some checkpoint =>
    have le := kept checkpoint rfl
    simp [Manifest.truncate, Option.filter, le, not_lt.mpr le]

lemma saved_truncate_of_lt (named : manifest.saved.checkpoint = some checkpoint)
    (cut : cursor < checkpoint) :
    (manifest.truncate cursor).saved = ⟨manifest.saved.fingerprint, none, true⟩ := by
  obtain ⟨_, original, ⟨fingerprint, _, offBranch⟩, _, _, _, _⟩ := manifest
  cases named
  simp [Manifest.truncate, Option.filter, cut]

lemma not_retained_truncate :
    ¬ Retained (manifest.truncate cursor) fingerprint ↔ fingerprint ≠ manifest.original ∧
      ∀ entry ∈ manifest.intervals.take cursor, entry.after ≠ fingerprint := by
  simp only [Retained, Manifest.truncate, not_or, not_exists, not_and, ne_eq]

/-- A truncated marker that names no boundary any more is truthful exactly if none has the content. -/
lemma truthful_truncate_of_lt (named : manifest.saved.checkpoint = some checkpoint)
    (cut : cursor < checkpoint) :
    Truthful (manifest.truncate cursor) ↔
      ¬ Retained (manifest.truncate cursor) manifest.saved.fingerprint := by
  have saved := saved_truncate_of_lt named cut
  constructor
  · intro truthful retained
    have onBranch := truthful.onBranch
    rw [saved] at onBranch
    cases onBranch.mpr retained
  · intro lost
    constructor
    · rw [saved]
      exact ⟨nofun, fun retained => absurd retained lost⟩
    · rw [saved]
      exact nofun

lemma truthful_truncate_of_kept (marked : Marked manifest)
    (kept : ∀ checkpoint ∈ manifest.saved.checkpoint, checkpoint ≤ cursor) :
    Truthful (manifest.truncate cursor) := by
  have saved := saved_truncate_of_kept kept
  have stays : ∀ checkpoint, manifest.saved.checkpoint = some checkpoint →
      boundary (manifest.truncate cursor) checkpoint = some manifest.saved.fingerprint := by
    intro checkpoint named
    rw [boundary_truncate (kept checkpoint named), marked.truthful.named checkpoint named]
  constructor
  · rw [saved]
    refine ⟨fun on => ?_, fun retained =>
      marked.truthful.onBranch.mpr (retained_of_truncate retained)⟩
    rw [marked.offBranch, Option.isNone_eq_false_iff] at on
    obtain ⟨checkpoint, named⟩ := Option.isSome_iff_exists.mp on
    exact retained_of_boundary (stays checkpoint named)
  · rw [saved]
    exact stays

/-- A truncation keeps the marker truthful if the boundary in it stays or was the only one with the
saved content. -/
lemma Marked.truncate (marked : Marked manifest) (within : cursor ≤ manifest.tip)
    (truthful : Truthful (manifest.truncate cursor)) : Marked (manifest.truncate cursor) := by
  refine ⟨truthful, ?_, ?_, ?_⟩
  · by_cases kept : ∀ checkpoint ∈ manifest.saved.checkpoint, checkpoint ≤ cursor
    · rw [saved_truncate_of_kept kept, marked.offBranch]
    · simp only [not_forall, not_le] at kept
      obtain ⟨checkpoint, named, cut⟩ := kept
      rw [saved_truncate_of_lt named cut]
      rfl
  · intro index entry found
    rw [Manifest.truncate, List.getElem?_take] at found
    split at found
    · exact marked.contiguous index entry found
    · cases found
  · have length := marked.tip
    rw [Manifest.truncate, List.length_take, Nat.min_eq_left (by omega)]

/-- The marker survives a truncation exactly if the boundary in it stays or was the only one with the
saved content. -/
lemma truthful_truncate (marked : Marked manifest) :
    Truthful (manifest.truncate cursor) ↔ KeepsMarker manifest (.truncateFuture cursor updatedAt) := by
  rw [KeepsMarker, Int.toNat_natCast, ← not_retained_truncate]
  by_cases kept : ∀ checkpoint ∈ manifest.saved.checkpoint, checkpoint ≤ cursor
  · refine ⟨?_, fun _ => truthful_truncate_of_kept marked kept⟩
    rintro _ ⟨checkpoint, named, cut⟩
    have le := kept checkpoint named
    omega
  · simp only [not_forall, not_le] at kept
    obtain ⟨checkpoint, named, cut⟩ := kept
    rw [truthful_truncate_of_lt named cut]
    exact ⟨fun lost _ => lost, fun lost => lost ⟨checkpoint, named, by omega⟩⟩

lemma Marked.setSaved (marked : Marked manifest) :
    Marked (manifest.setSaved fingerprint) := by
  refine ⟨?_, rfl, marked.contiguous, marked.tip⟩
  by_cases original : fingerprint = manifest.original
  · have saved : (manifest.setSaved fingerprint).saved = ⟨fingerprint, some 0, false⟩ := by
      simp only [Manifest.setSaved]
      rw [if_pos (fingerprintsEqual_iff.mpr original)]
      rfl
    constructor
    · rw [saved]
      exact ⟨fun _ => .inl original, fun _ => rfl⟩
    · rw [saved]
      rintro _ ⟨⟩
      exact congrArg some original.symm
  cases found : manifest.intervals.find? fun entry => fingerprintsEqual fingerprint entry.after with
  | none =>
    have saved : (manifest.setSaved fingerprint).saved = ⟨fingerprint, none, true⟩ := by
      simp only [Manifest.setSaved]
      rw [if_neg (mt fingerprintsEqual_iff.mp original), found]
      rfl
    constructor
    · rw [saved]
      refine ⟨nofun, ?_⟩
      rintro (same | ⟨entry, mem, same⟩)
      · exact absurd same original
      · exact absurd (fingerprintsEqual_iff.mpr same.symm) (List.find?_eq_none.mp found entry mem)
    · rw [saved]
      exact nofun
  | some entry =>
    have saved : (manifest.setSaved fingerprint).saved = ⟨fingerprint, some entry.checkpoint, false⟩ := by
      simp only [Manifest.setSaved]
      rw [if_neg (mt fingerprintsEqual_iff.mp original), found]
      rfl
    have matched : fingerprintsEqual fingerprint entry.after = true := by
      simpa using List.find?_some found
    have same : entry.after = fingerprint := (fingerprintsEqual_iff.mp matched).symm
    have mem : entry ∈ manifest.intervals := List.mem_of_find?_eq_some found
    obtain ⟨index, there⟩ := List.getElem?_of_mem mem
    have place := marked.contiguous index entry there
    constructor
    · rw [saved]
      exact ⟨fun _ => .inr ⟨entry, mem, same⟩, fun _ => rfl⟩
    · rw [saved]
      rintro _ ⟨⟩
      rw [place, boundary]
      exact Option.map_eq_some_iff.mpr ⟨entry, there, same⟩

lemma Marked.withoutArchive {code message : String} (marked : Marked manifest) :
    Marked (manifest.withoutArchive checkpoint code message) := by
  have found : ∀ index : Nat, (manifest.withoutArchive checkpoint code message).intervals[index]? =
      (manifest.intervals[index]?).map fun entry => if entry.checkpoint = checkpoint then
        { entry with state := .unavailable code message } else entry := by
    intro index
    rw [Manifest.withoutArchive, List.getElem?_map]
  have boundaries : ∀ place, boundary (manifest.withoutArchive checkpoint code message) place =
      boundary manifest place := by
    intro place
    cases place with
    | zero => rfl
    | succ index =>
      rw [boundary, boundary, found, Option.map_map]
      congr 1
      funext entry
      rw [Function.comp_apply]
      split <;> rfl
  have retained : Retained (manifest.withoutArchive checkpoint code message) manifest.saved.fingerprint ↔
      Retained manifest manifest.saved.fingerprint := by
    refine or_congr_right ⟨?_, ?_⟩
    · rintro ⟨entry, mem, same⟩
      obtain ⟨old, inside, rfl⟩ := List.mem_map.mp mem
      refine ⟨old, inside, ?_⟩
      rw [← same]
      split <;> rfl
    · rintro ⟨entry, mem, same⟩
      refine ⟨_, List.mem_map_of_mem mem, ?_⟩
      rw [← same]
      split <;> rfl
  refine ⟨⟨?_, ?_⟩, marked.offBranch, ?_, ?_⟩
  · exact marked.truthful.onBranch.trans retained.symm
  · intro place named
    rw [boundaries]
    exact marked.truthful.named place named
  · intro index entry there
    rw [found] at there
    obtain ⟨old, inside, rfl⟩ := Option.map_eq_some_iff.mp there
    have place := marked.contiguous index old inside
    split
    · exact place
    · exact place
  · rw [Manifest.withoutArchive, List.length_map]
    exact marked.tip

lemma Marked.touch (marked : Marked manifest) (updatedAt : Utf16.Text) : Marked (manifest.touch updatedAt) :=
  ⟨⟨marked.truthful.onBranch, marked.truthful.named⟩, marked.offBranch, marked.contiguous, marked.tip⟩

end Marker

section Calls
variable {manifest next : Manifest} {maxCheckpoints : Nat} {done : Unit}

lemma checkpoint_of_entry {before after : Fingerprint} {plugins : List Utf16.Text}
    {state : Availability}
    (built : Manifest.entry options before after plugins state = .ok interval) :
    interval.checkpoint = options.checkpoint := by
  obtain ⟨_, _, built⟩ := bind_eq_ok.mp built
  obtain ⟨_, _, built⟩ := bind_eq_ok.mp built
  cases built
  rfl

lemma checkpoint_of_startCapture
    (started : manifest.startCapture maxCheckpoints options = .ok found) :
    options.checkpoint = manifest.tip + 1 := by
  rw [Manifest.startCapture, ChangeLog.guard_eq_ok] at started
  by_contra other
  exact started.1 (.inl other)

lemma checkpoint_of_startUnavailable (started : manifest.startUnavailable options = .ok found) :
    options.checkpoint = manifest.tip + 1 := by
  rw [Manifest.startUnavailable, ChangeLog.guard_eq_ok] at started
  by_contra other
  exact started.1 (.inl other)

lemma checkCursor_eq_ok {cursor : Int} {place : Nat} :
    manifest.checkCursor cursor = .ok place ↔ cursor = place ∧ place ≤ manifest.tip := by
  rw [Manifest.checkCursor, ChangeLog.guard_eq_ok, not_or, Except.ok.injEq]
  omega

/-- A call keeps the marker truthful exactly if it is no truncation that loses it. -/
theorem Marked.commit {call : Call} (marked : Marked manifest)
    (committed : commit maxCheckpoints manifest call = .ok (next, done)) :
    (KeepsMarker manifest call → Marked next) ∧ (Truthful next → KeepsMarker manifest call) := by
  obtain ⟨_, built, committed⟩ := bind_eq_ok.mp committed
  obtain ⟨_, _, committed⟩ := bind_eq_ok.mp committed
  cases committed
  cases call with
  | captureInterval options winner optimized =>
    obtain ⟨⟨before, after⟩, started, built⟩ := bind_eq_ok.mp built
    obtain ⟨_, _, built⟩ := bind_eq_ok.mp built
    obtain ⟨interval, entered, built⟩ := bind_eq_ok.mp built
    cases built
    refine ⟨fun _ => (marked.append ?_).touch _, fun _ => trivial⟩
    rw [checkpoint_of_entry entered, checkpoint_of_startCapture started]
  | recordUnavailable options code message =>
    obtain ⟨⟨before, after⟩, started, built⟩ := bind_eq_ok.mp built
    obtain ⟨interval, entered, built⟩ := bind_eq_ok.mp built
    cases built
    refine ⟨fun _ => (marked.append ?_).touch _, fun _ => trivial⟩
    rw [checkpoint_of_entry entered, checkpoint_of_startUnavailable started]
  | markIntervalUnavailable checkpoint code message updatedAt =>
    obtain ⟨_, _, built⟩ := bind_eq_ok.mp built
    cases built
    exact ⟨fun _ => marked.withoutArchive.touch updatedAt, fun _ => trivial⟩
  | truncateFuture cursor updatedAt =>
    obtain ⟨place, checked, built⟩ := bind_eq_ok.mp built
    cases built
    obtain ⟨rfl, within⟩ := checkCursor_eq_ok.mp checked
    exact ⟨fun keeps => (marked.truncate within ((truthful_truncate marked).mpr keeps)).touch updatedAt,
      fun truthful => (truthful_truncate marked).mp ⟨truthful.onBranch, truthful.named⟩⟩
  | setCursor cursor updatedAt =>
    obtain ⟨place, checked, built⟩ := bind_eq_ok.mp built
    cases built
    exact ⟨fun _ => ⟨⟨marked.truthful.onBranch, marked.truthful.named⟩, marked.offBranch,
      marked.contiguous, marked.tip⟩, fun _ => trivial⟩
  | setSavedFingerprint fingerprint updatedAt =>
    obtain ⟨normal, _, built⟩ := bind_eq_ok.mp built
    cases built
    exact ⟨fun _ => marked.setSaved.touch updatedAt, fun _ => trivial⟩

end Calls

lemma marked_initial (original : Fingerprint) (updatedAt : Utf16.Text) :
    Marked (.initial original updatedAt) := by
  refine ⟨⟨⟨fun _ => .inl rfl, fun _ => rfl⟩, ?_⟩, rfl, ?_, rfl⟩
  · rintro checkpoint ⟨⟩
    rfl
  · rintro index entry ⟨⟩

/-- The marker of a session is truthful as long as no truncation loses it, and only such a truncation
makes it wrong. -/
theorem saved_marker_truthful (maxCheckpoints : Nat) (original : Fingerprint) (updatedAt : Utf16.Text)
    {manifest : Manifest}
    (reached : Transition.Reaches (commit maxCheckpoints) KeepsMarker (.initial original updatedAt) manifest) :
    Truthful manifest ∧ ∀ call next done, commit maxCheckpoints manifest call = .ok (next, done) →
      (Truthful next ↔ KeepsMarker manifest call) := by
  have marked : Marked manifest := reached.invariant (marked_initial original updatedAt)
    fun _ _ _ _ marked keeps committed => (marked.commit committed).1 keeps
  refine ⟨marked.truthful, fun call next done committed => ?_⟩
  obtain ⟨kept, keeps⟩ := marked.commit committed
  exact ⟨keeps, fun keeps => (kept keeps).truthful⟩

section Examples
open Utf16

/-- An interval between two contents without an archive. -/
def between (checkpoint : Nat) (before after : String) : Call :=
  .recordUnavailable ⟨checkpoint, checkpoint, ascii "1", contentInput before, contentInput after, .plain,
    none, none, instant "01", instant "01"⟩ "TIMELINE_QUOTA_EXCEEDED" "No checkpoint history quota remains"

/-- The content changes and is changed back, then the timeline is cut after the first change: the saved
content is the original one, but the marker says that it is off the branch. -/
theorem truncateFuture_loses_marker :
    ∃ manifest, Transition.Reaches (commit 1000) (fun _ _ => True)
        (.initial (content "0a") (instant "00")) manifest ∧
      manifest.saved.offBranch = true ∧ manifest.saved.fingerprint = manifest.original := by
  obtain ⟨manifest, reached, shows⟩ := Transition.exists_reaches (commit 1000) (fun _ _ => True)
    (.initial (content "0a") (instant "00"))
    (fun manifest => manifest.saved.offBranch && manifest.saved.fingerprint == manifest.original)
    [between 1 "0a" "0b", between 2 "0b" "0a", .truncateFuture 1 (instant "02")] (by decide +kernel)
  rw [Bool.and_eq_true, beq_iff_eq] at shows
  exact ⟨manifest, reached, shows⟩

instance (manifest : Manifest) (call : Call) : Decidable (KeepsMarker manifest call) := by
  unfold KeepsMarker
  split <;> infer_instance

/-- The changed content is saved, and the marker follows the truncation of that change. -/
theorem saved_marker_truthful_lost :
    ∃ manifest, Transition.Reaches (commit 1000) KeepsMarker
        (.initial (content "0a") (instant "00")) manifest ∧
      manifest.saved.offBranch = true ∧ Truthful manifest := by
  obtain ⟨manifest, reached, off⟩ := Transition.exists_reaches (commit 1000) KeepsMarker
    (.initial (content "0a") (instant "00")) (fun manifest => manifest.saved.offBranch)
    [between 1 "0a" "0b", .setSavedFingerprint (contentInput "0b") (instant "02"),
      .truncateFuture 0 (instant "03")]
    (by decide +kernel)
  exact ⟨manifest, reached, off, (saved_marker_truthful 1000 (content "0a") _ reached).1⟩

end Examples

end OmegaEdit.Timeline
