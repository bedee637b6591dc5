import OmegaEdit.Saves

/-! What saves leave on the disk. The output holds the requested part of the content, and an original
that was modified outside of the session is not overwritten as long as the session still reads from
it. -/
namespace OmegaEdit
open Splice
open Transition (bind_eq_ok)
variable {file : DiskFile} {room : Option Nat} {segments : List ModelSegment}
  {offset adjustedLength bytesWritten code : Int} {model : Model} {content bytes : List Byte}
  {path : Path} {overwriteOriginal : Bool}

/-- What is written continues the output, unless there is no room for it. As long as something is
left to write, the loop is at the start of the range or of a segment. -/
lemma saveLoop_spec {file : Option CheckpointFile} {start : Int} (room : Option Nat)
    (written : List Byte) (contiguous : Contiguous start segments)
    (inBounds : ∀ segment ∈ segments, segment.InBounds (fileContent file)) (positioned : 0 ≤ offset)
    (reached : bytesWritten < adjustedLength → start ≤ offset + bytesWritten ∧
      (bytesWritten = 0 ∨ offset + bytesWritten = start))
    (counted : 0 ≤ bytesWritten) (within : bytesWritten ≤ adjustedLength)
    (inside : offset + adjustedLength ≤ start + totalLength segments)
    (small : start + totalLength segments ≤ int64Max) :
    (room ≠ none ∧ ∃ code,
      saveLoop file room offset adjustedLength bytesWritten written segments = .ok (.error code)) ∨
    saveLoop file room offset adjustedLength bytesWritten written segments =
      .ok (.ok (written ++ slice (segmentBytes (fileContent file) segments)
        (offset + bytesWritten - start).toNat (adjustedLength - bytesWritten).toNat,
        adjustedLength)) := by
  induction segments generalizing start bytesWritten written with
  | nil =>
    rw [totalLength_nil] at inside
    have same : adjustedLength = bytesWritten := by omega
    right
    simp [saveLoop, same, slice]
  | cons segment rest ih =>
    obtain ⟨atStart, restContiguous⟩ := contiguous
    obtain ⟨bounds, restBounds⟩ := List.forall_mem_cons.mp inBounds
    have positive := bounds.positive
    have length := bounds.length_bytes
    have restNonneg := totalLength_nonneg (sized_of_inBounds restBounds)
    rw [totalLength_cons] at small inside
    rw [saveLoop]
    by_cases done : adjustedLength ≤ bytesWritten
    · have same : adjustedLength = bytesWritten := by omega
      right
      simp [same]
    obtain ⟨reached, begun⟩ := reached (by omega)
    rw [if_neg done, segmentEnd_eq atStart positive (by omega)]
    dsimp only
    by_cases behind : start + segment.computedLength ≤ offset
    · rw [if_pos behind]
      have skip : (offset + bytesWritten - start).toNat = (segment.bytes (fileContent file)).length +
          (offset + bytesWritten - (start + segment.computedLength)).toNat := by omega
      rw [segmentBytes_cons, skip, slice_append_right]
      exact ih written restContiguous restBounds (fun _ => by omega) counted within (by omega)
        (by omega)
    · rw [if_neg behind]
      have segmentStart : max (offset - segment.computedOffset) 0 = offset + bytesWritten - start := by
        omega
      rw [segmentStart]
      generalize amount : min (adjustedLength - bytesWritten)
        (segment.computedLength - (offset + bytesWritten - start)) = segmentLength
      generalize skipped : offset + bytesWritten - start = skip at amount ⊢
      obtain ⟨sourceOffset, copied⟩ := bounds.copied (by omega : 0 ≤ skip)
        (by omega : 0 ≤ segmentLength) (by omega)
      have counts : safeAdd bytesWritten segmentLength = some (bytesWritten + segmentLength) :=
        safeAdd_of_le (by omega) (by omega)
      simp only [sourceOffset, copied, counts, bind, Except.bind]
      split
      · next full =>
        refine .inl ⟨?_, _, rfl⟩
        rintro rfl
        cases full
      · -- the part of this segment, and then what the other segments add
        have next := ih
          (written ++ slice (segment.bytes (fileContent file)) skip.toNat segmentLength.toNat)
          restContiguous restBounds (fun _ => (by omega : _ ∧
            (bytesWritten + segmentLength = 0 ∨ _))) (by omega) (by omega) (by omega) (by omega)
        rw [bounds.slice_cons (by omega) (by omega) amount, Int.sub_sub, ← List.append_assoc]
        rcases Nat.eq_zero_or_pos (adjustedLength - (bytesWritten + segmentLength)).toNat with none | more
        · rw [none, slice_zero] at next ⊢
          exact next
        · have here : (offset + (bytesWritten + segmentLength) -
              (start + segment.computedLength)).toNat = 0 := by omega
          rw [here] at next
          exact next

lemma saveLoop_segmentsFrom (room : Option Nat) (denotes : model.HasContent content)
    (positioned : 0 ≤ offset) (nonneg : 0 ≤ adjustedLength) (inside : offset + adjustedLength ≤ content.length) :
    (room ≠ none ∧ ∃ code, saveLoop model.file room offset adjustedLength 0 []
      (segmentsFrom offset model.modelSegments) = .ok (.error code)) ∨
    saveLoop model.file room offset adjustedLength 0 [] (segmentsFrom offset model.modelSegments) =
      .ok (.ok (slice content offset.toNat adjustedLength.toNat, adjustedLength)) := by
  obtain ⟨wellFormed, total, content_eq⟩ := layout denotes
  cases segments : model.modelSegments with
  | nil =>
    rw [segments, totalLength_nil] at total
    obtain rfl : adjustedLength = 0 := by omega
    right
    simp [segmentsFrom, saveLoop]
  | cons head tail =>
    rw [segments] at wellFormed total content_eq
    obtain ⟨front, segment, behind, split, found, at_, le, _⟩ := segmentsFrom_spec
      wellFormed.contiguous (by simp) positioned (by omega)
    have contiguous := wellFormed.contiguous
    have inBounds := wellFormed.inBounds
    have small := wellFormed.small
    rw [split] at contiguous inBounds small total content_eq
    rw [totalLength_append] at small total
    have frontBounds : ∀ other ∈ front, other.InBounds (fileContent model.file) :=
      fun other mem => inBounds other (List.mem_append_left _ mem)
    have frontLength := length_segmentBytes frontBounds
    have skip : offset.toNat = (segmentBytes (fileContent model.file) front).length +
        (offset + 0 - (0 + totalLength front)).toNat := by omega
    have looped := saveLoop_spec room [] (contiguous_append.mp contiguous).2
      (fun other mem => inBounds other (List.mem_append_right _ mem)) positioned
      (fun _ => ⟨(by omega : 0 + totalLength front ≤ offset + 0), .inl rfl⟩) (Int.le_refl 0) nonneg
      (by omega) (by omega)
    rw [found, ← content_eq, segmentBytes_append, skip, slice_append_right]
    rwa [List.nil_append, Int.sub_zero] at looped

/-- The output holds the requested part of the content. -/
lemma writeOutput_eq {surroundings : Surroundings} (denotes : model.HasContent content)
    (positioned : 0 ≤ offset) (nonneg : 0 ≤ adjustedLength)
    (inside : offset + adjustedLength ≤ content.length)
    (output : writeOutput model surroundings offset adjustedLength = .ok (.ok bytes)) :
    bytes = slice content offset.toNat adjustedLength.toNat := by
  obtain ⟨looped, ran, rest⟩ := bind_eq_ok.mp output
  rcases saveLoop_segmentsFrom _ denotes positioned nonneg inside with ⟨_, code, gaveUp⟩ | wrote
  · cases gaveUp.symm.trans ran
    cases rest
  · cases wrote.symm.trans ran
    dsimp only at rest
    split at rest
    · cases rest
    · split at rest
      · cases rest
      · split at rest
        · cases rest
        · exact (Except.ok.inj (Except.ok.inj rest)).symm

lemma Disk.put_self (disk : Disk) (path : Path) (file : Option DiskFile) :
    disk.put path file path = file := if_pos rfl

lemma reserveOutputPath_free {disk : Disk} {numbered : Path → Nat → Path} {requested : Path}
    (reserved : reserveOutputPath disk numbered requested = some path) : disk path = none := by
  have searched (attempts suffix : Nat)
      (found : reserveOutputPath.search disk numbered requested attempts suffix = some path) :
      disk path = none := by
    induction attempts generalizing suffix with
    | zero => cases found
    | succ attempts ih =>
      rw [reserveOutputPath.search] at found
      split at found
      · next free =>
        cases found
        exact Option.isNone_iff_eq_none.mp free
      · exact ih (suffix + 1) found
  rw [reserveOutputPath] at reserved
  split at reserved
  · next free =>
    cases reserved
    exact Option.isNone_iff_eq_none.mp free
  · exact searched _ _ reserved

lemma saveLoop_error_ne {file : Option CheckpointFile} {written : List Byte}
    (gaveUp : saveLoop file room offset adjustedLength bytesWritten written segments =
      .ok (.error code)) : code ≠ 0 := by
  induction segments generalizing bytesWritten written with
  | nil => cases gaveUp
  | cons segment rest ih =>
    rw [saveLoop] at gaveUp
    split at gaveUp
    · cases gaveUp
    · split at gaveUp
      · cases gaveUp
        decide
      · split at gaveUp
        · exact ih gaveUp
        · dsimp only at gaveUp
          split at gaveUp
          · cases gaveUp
            cases segment.kind <;> decide
          · obtain ⟨copied, _, more⟩ := bind_eq_ok.mp gaveUp
            cases copied with
            | none =>
              cases more
              cases segment.kind <;> decide
            | some bytes =>
              dsimp only at more
              split at more
              · cases more
                cases segment.kind <;> decide
              · split at more
                · cases more
                  decide
                · exact ih more

lemma writeOutput_error_ne {surroundings : Surroundings}
    (gaveUp : writeOutput model surroundings offset adjustedLength = .ok (.error code)) :
    code ≠ 0 := by
  obtain ⟨looped, ran, rest⟩ := bind_eq_ok.mp gaveUp
  cases looped with
  | error other =>
    cases rest
    exact saveLoop_error_ne ran
  | ok output =>
    dsimp only at rest
    split at rest
    · cases rest
      exact nofun
    · split at rest
      · cases rest
        exact nofun
      · split at rest
        · cases rest
          exact nofun
        · cases rest

section Saving
variable {workspace : Workspace} {request : SaveRequest} {surroundings : Surroundings}
  {saved : Saved}

/-- The request names a file and asks for a part of the content. -/
structure Workspace.Asks (workspace : Workspace) (request : SaveRequest) : Prop where
  nonempty : request.filePath ≠ ""
  positioned : 0 ≤ request.offset
  inside : request.offset ≤ workspace.session.computedFileSize

/-- The path that a save is to write to. -/
def Workspace.target (workspace : Workspace) (numbered : Path → Nat → Path) (request : SaveRequest) :
    Option Path :=
  if request.overwrite then some request.filePath
  else reserveOutputPath workspace.disk numbered request.filePath

lemma adjustedLength_le (workspace : Workspace) (request : SaveRequest) :
    request.offset + workspace.adjustedLength request ≤ workspace.session.computedFileSize := by
  simp only [Workspace.adjustedLength]
  split <;> omega

lemma Workspace.Asks.adjustedLength_nonneg (asks : workspace.Asks request) :
    0 ≤ workspace.adjustedLength request := by
  have inside := asks.inside
  simp only [Workspace.adjustedLength]
  split <;> omega

lemma Workspace.Asks.saveSegmentWithOptions_eq (asks : workspace.Asks request) :
    workspace.saveSegmentWithOptions request surroundings =
      if workspace.refusesModified request then .ok (workspace.failed originalModified)
      else if surroundings.fails .createDirectory then .ok (workspace.failed (-2))
      else if request.overwrite then workspace.saveOverwriting request surroundings
      else workspace.saveReserved request surroundings := by
  have nonneg := asks.adjustedLength_nonneg
  have positioned := asks.positioned
  have inside := asks.inside
  rw [Workspace.saveSegmentWithOptions, if_neg, if_neg (by omega), if_neg (by omega)]
  rintro (empty | negative)
  · exact asks.nonempty empty
  · omega

lemma saveSegmentWithOptions_of_not_asks (outside : ¬ workspace.Asks request) :
    workspace.saveSegmentWithOptions request surroundings = .ok (workspace.failed (-1)) := by
  rw [Workspace.saveSegmentWithOptions]
  split
  · rfl
  next named =>
  rw [not_or] at named
  split
  · rfl
  split
  · rfl
  next nonneg =>
  have le := adjustedLength_le workspace request
  exact absurd ⟨named.1, by omega, by omega⟩ outside

/-- What a save with result zero has done. -/
structure Stores (workspace : Workspace) (request : SaveRequest) (surroundings : Surroundings)
    (saved : Saved) (path : Path) (bytes : List Byte) : Prop where
  asks : workspace.Asks request
  output : writeOutput workspace.session.top surroundings request.offset
    (workspace.adjustedLength request) = .ok (.ok bytes)
  named : saved.savedFilePath = some path
  target : workspace.target surroundings.numbered request = some path
  stored : saved.workspace.disk path = some ⟨bytes, surroundings.now⟩
  synced : workspace.overwriteOriginal request = true →
    saved.workspace.originalFileModificationTime = surroundings.now ∧
      saved.workspace.originalFileModificationTimeValid = true

lemma finishSave_zero (stored : workspace.disk path = some file)
    (zero : (workspace.finishSave surroundings overwriteOriginal path).result = 0) :
    workspace.finishSave surroundings overwriteOriginal path = ⟨if overwriteOriginal then
          { workspace with
            originalFileModificationTime := file.modificationTime
            originalFileModificationTimeValid := true }
        else workspace, 0, some path⟩ := by
  rw [Workspace.finishSave] at zero ⊢
  split at zero
  · cases zero
  · next synchronised =>
    rw [if_neg synchronised]
    cases overwriteOriginal with
    | false => rfl
    | true => simp [Workspace.refreshOriginalFileModificationTime, stored]

/-- How a save comes to its answer. -/
inductive Workspace.Saves (workspace : Workspace) (request : SaveRequest)
    (surroundings : Surroundings) : Saved → Prop where
  | refused {code : Int} (nonzero : code ≠ 0) : Saves _ _ _ (workspace.failed code)
  | gaveUp {code : Int} (nonzero : code ≠ 0) :
      Saves _ _ _ ((workspace.later surroundings).failed code)
  | overwrote {bytes : List Byte} (asks : workspace.Asks request) (overwrite : request.overwrite = true)
      (output : writeOutput workspace.session.top surroundings request.offset
        (workspace.adjustedLength request) = .ok (.ok bytes)) :
      Saves _ _ _ ((workspace.later surroundings).replaceTarget request surroundings
        (workspace.overwriteOriginal request) bytes)
  | reserved {path : Path} {bytes : List Byte} (asks : workspace.Asks request)
      (kept : request.overwrite = false)
      (free : reserveOutputPath workspace.disk surroundings.numbered request.filePath = some path)
      (output : writeOutput workspace.session.top surroundings request.offset
        (workspace.adjustedLength request) = .ok (.ok bytes)) :
      Saves _ _ _ ({ workspace with
        disk := (surroundings.meanwhile workspace.disk).put path
          (some ⟨bytes, surroundings.now⟩) }.finishSave surroundings false path)

lemma saveSegmentWithOptions_saves
    (done : workspace.saveSegmentWithOptions request surroundings = .ok saved) :
    workspace.Saves request surroundings saved := by
  rw [Workspace.saveSegmentWithOptions] at done
  split at done
  · cases done
    exact .refused nofun
  next named =>
  rw [not_or] at named
  split at done
  · cases done
    exact .refused nofun
  split at done
  · cases done
    exact .refused nofun
  next nonneg =>
  have le := adjustedLength_le workspace request
  have asks : workspace.Asks request := ⟨named.1, by omega, by omega⟩
  split at done
  · cases done
    exact .refused nofun
  split at done
  · cases done
    exact .refused nofun
  split at done
  · next overwrite =>
    rw [Workspace.saveOverwriting] at done
    split at done
    · cases done
      exact .refused nofun
    split at done
    · cases done
      exact .refused nofun
    obtain ⟨output, ran, rest⟩ := bind_eq_ok.mp done
    cases output <;> cases rest
    · exact .gaveUp (writeOutput_error_ne ran)
    · exact .overwrote asks overwrite ran
  · next kept =>
    rw [Workspace.saveReserved] at done
    split at done
    · cases done
      exact .refused nofun
    split at done
    · cases done
      exact .refused nofun
    next path reserved =>
    obtain ⟨output, ran, rest⟩ := bind_eq_ok.mp done
    cases output <;> cases rest
    · exact .gaveUp (writeOutput_error_ne ran)
    · exact .reserved asks (Bool.not_eq_true _ ▸ kept) reserved ran

lemma Workspace.Saves.stores (saves : workspace.Saves request surroundings saved)
    (zero : saved.result = 0) : ∃ path bytes, Stores workspace request surroundings saved path bytes := by
  cases saves with
  | refused nonzero | gaveUp nonzero => exact absurd zero nonzero
  | @overwrote bytes asks overwrite output =>
    rw [Workspace.replaceTarget] at zero
    split at zero
    · cases zero
    next spared =>
    split at zero
    · cases zero
    next replaced =>
    have stored := Disk.put_self (surroundings.meanwhile workspace.disk) request.filePath
      (some ⟨bytes, surroundings.now⟩)
    have finished := finishSave_zero stored zero
    refine ⟨_, bytes, asks, output, ?_, by rw [Workspace.target, if_pos overwrite], ?_, ?_⟩
    all_goals rw [Workspace.replaceTarget, if_neg spared, if_neg replaced, finished]
    · split
      · exact stored
      · exact stored
    · intro original
      rw [if_pos original]
      exact ⟨rfl, rfl⟩
  | @reserved path bytes asks kept free output =>
    have stored := Disk.put_self (surroundings.meanwhile workspace.disk) path
      (some ⟨bytes, surroundings.now⟩)
    have finished := finishSave_zero stored zero
    refine ⟨path, bytes, asks, output, ?_, by rw [Workspace.target, kept, if_neg Bool.false_ne_true, free], ?_, ?_⟩
    all_goals rw [finished]
    · exact stored
    · rw [Workspace.overwriteOriginal, kept]
      exact nofun

lemma Stores.bytes_eq (stores : Stores workspace request surroundings saved path bytes)
    (denotes : workspace.session.top.HasContent content) :
    bytes = slice content request.offset.toNat (workspace.adjustedLength request).toNat := by
  have inside := adjustedLength_le workspace request
  have size := computedFileSize_eq denotes
  rw [Session.computedFileSize, size] at inside
  exact writeOutput_eq denotes stores.asks.positioned stores.asks.adjustedLength_nonneg inside stores.output

end Saving

/-- The original file was modified by others, and the request is to overwrite it only otherwise. -/
structure Workspace.ModifiedOutside (workspace : Workspace) (request : SaveRequest) : Prop where
  target : request.filePath = workspace.filePath
  overwrite : request.ioFlags.testBit 0 = true
  unforced : request.forceOverwrite = false
  unguarded : request.overwriteGuard = none
  later : ∃ file, workspace.disk workspace.filePath = some file ∧
    workspace.originalFileModificationTime < file.modificationTime

/-- A save never clobbers a modified original, and otherwise stores what was asked for. -/
structure Workspace.SavesWell (workspace : Workspace) (request : SaveRequest)
    (surroundings : Surroundings) : Prop where
  refuses : workspace.ModifiedOutside request →
    workspace.saveSegmentWithOptions request surroundings = .ok ⟨workspace, originalModified, none⟩
  stores : ¬ workspace.ModifiedOutside request → ∀ saved,
    workspace.saveSegmentWithOptions request surroundings = .ok saved → saved.result = 0 →
    ∃ path file, saved.savedFilePath = some path ∧
      (request.overwrite = true → path = request.filePath) ∧ saved.workspace.disk path = some file ∧
      (∀ content, workspace.session.top.HasContent content → file.bytes =
        Splice.slice content request.offset.toNat (workspace.adjustedLength request).toNat) ∧
      (path = workspace.filePath →
        saved.workspace.originalFileModificationTime = file.modificationTime ∧
          saved.workspace.originalFileModificationTimeValid = true)
  /-- The second check: what others have made of the original while the output was written. -/
  spares : request.filePath = workspace.filePath → request.ioFlags.testBit 0 = true →
    request.forceOverwrite = false → request.overwriteGuard = none → ∀ saved file,
    workspace.saveSegmentWithOptions request surroundings = .ok saved →
    surroundings.meanwhile workspace.disk workspace.filePath = some file →
    workspace.originalFileModificationTime < file.modificationTime →
    saved.workspace.disk workspace.filePath = workspace.disk workspace.filePath ∨
      saved.workspace.disk workspace.filePath = some file

/-- A save that finds the original modified asks for a part of the content; and a save that is to write
to the path of the original finds it there while the session reads from it. -/
structure Workspace.Direct (workspace : Workspace) (numbered : Path → Nat → Path) (request : SaveRequest) :
    Prop where
  asks : workspace.ModifiedOutside request → workspace.Asks request
  original : workspace.Asks request → workspace.target numbered request = some workspace.filePath →
    (workspace.disk workspace.filePath).isSome = true ∧
      workspace.sessionFilePath = some workspace.filePath

/-- The session keeps the path of its original and always has a time to compare with. -/
structure Workspace.Synchronised (filePath : Path) (workspace : Workspace) : Prop where
  filePath_eq : workspace.filePath = filePath
  valid : workspace.originalFileModificationTimeValid = true

section Runs
variable {workspace next : Workspace} {request : SaveRequest} {surroundings : Surroundings}
  {saved : Saved} {filePath : Path}

lemma finishSave_synchronised (synchronised : workspace.Synchronised filePath)
    (stored : workspace.disk path = some file) :
    (workspace.finishSave surroundings overwriteOriginal path).workspace.Synchronised filePath := by
  rw [Workspace.finishSave]
  split
  · exact synchronised
  · split
    · simp only [Workspace.refreshOriginalFileModificationTime, stored, ne_eq, not_true_eq_false,
        if_false]
      exact ⟨synchronised.filePath_eq, rfl⟩
    · exact synchronised

lemma replaceTarget_synchronised (synchronised : workspace.Synchronised filePath) :
    (workspace.replaceTarget request surroundings overwriteOriginal
      bytes).workspace.Synchronised filePath := by
  rw [Workspace.replaceTarget]
  split
  · exact synchronised
  · split
    · exact synchronised
    · exact finishSave_synchronised ⟨synchronised.filePath_eq, synchronised.valid⟩
        (Disk.put_self _ _ _)

lemma Workspace.Saves.synchronised (saves : workspace.Saves request surroundings saved)
    (synchronised : workspace.Synchronised filePath) : saved.workspace.Synchronised filePath := by
  have later : (workspace.later surroundings).Synchronised filePath :=
    ⟨synchronised.filePath_eq, synchronised.valid⟩
  cases saves with
  | refused => exact synchronised
  | gaveUp => exact later
  | overwrote => exact replaceTarget_synchronised later
  | reserved =>
    exact finishSave_synchronised ⟨later.filePath_eq, later.valid⟩ (Disk.put_self _ _ _)

lemma step_synchronised {action : Action} {result : Int}
    (synchronised : workspace.Synchronised filePath)
    (stepped : workspace.step action = .ok (next, result)) : next.Synchronised filePath := by
  cases action with
  | call call =>
    obtain ⟨_, _, rest⟩ := bind_eq_ok.mp stepped
    cases rest
    exact ⟨synchronised.filePath_eq, synchronised.valid⟩
  | outside path file =>
    cases stepped
    exact ⟨synchronised.filePath_eq, synchronised.valid⟩
  | save request surroundings =>
    obtain ⟨saved, done, rest⟩ := bind_eq_ok.mp stepped
    cases rest
    exact (saveSegmentWithOptions_saves done).synchronised synchronised

/-- A save to the path of the original looks at the original in its checks. -/
lemma Workspace.Direct.overwriteOriginal_eq {numbered : Path → Nat → Path}
    (direct : workspace.Direct numbered request) (asks : workspace.Asks request)
    (target : request.filePath = workspace.filePath) (overwrite : request.overwrite = true) :
    workspace.sessionFilePath = some workspace.filePath ∧ workspace.overwriteOriginal request = true := by
  obtain ⟨present, reads⟩ := direct.original asks (by rw [Workspace.target, if_pos overwrite, target])
  refine ⟨reads, ?_⟩
  rw [Workspace.overwriteOriginal, target, present, reads, overwrite]
  simp

lemma SaveRequest.overwrite_of_testBit (bit : request.ioFlags.testBit 0 = true) :
    request.overwrite = true := by
  rw [SaveRequest.overwrite, bit, Bool.or_true]

lemma Workspace.Direct.refuses {numbered : Path → Nat → Path} (direct : workspace.Direct numbered request)
    (synchronised : workspace.Synchronised filePath) (modified : workspace.ModifiedOutside request) :
    workspace.saveSegmentWithOptions request surroundings =
      .ok ⟨workspace, originalModified, none⟩ := by
  have asks := direct.asks modified
  obtain ⟨file, there, later⟩ := modified.later
  obtain ⟨reads, original⟩ := direct.overwriteOriginal_eq asks modified.target
    (SaveRequest.overwrite_of_testBit modified.overwrite)
  have refused : workspace.refusesModified request = true := by
    rw [Workspace.refusesModified, original, reads, modified.unforced, modified.unguarded]
    simp only [Workspace.originalFileModifiedSinceLastSync, Option.bind_some, there, synchronised.valid, later]
    simp
  rw [asks.saveSegmentWithOptions_eq, if_pos refused]
  rfl

/-- What others have written to the original in the meantime is noticed before the replacement. -/
lemma Workspace.Direct.spares {numbered : Path → Nat → Path} (direct : workspace.Direct numbered request)
    (synchronised : workspace.Synchronised filePath)
    (target : request.filePath = workspace.filePath) (overwrite : request.overwrite = true)
    (unforced : request.forceOverwrite = false) (unguarded : request.overwriteGuard = none)
    (done : workspace.saveSegmentWithOptions request surroundings = .ok saved)
    (there : surroundings.meanwhile workspace.disk workspace.filePath = some file)
    (later : workspace.originalFileModificationTime < file.modificationTime) :
    saved.workspace = workspace ∨ saved.workspace = workspace.later surroundings := by
  cases saveSegmentWithOptions_saves done with
  | refused => exact .inl rfl
  | gaveUp => exact .inr rfl
  | overwrote asks =>
    obtain ⟨reads, original⟩ := direct.overwriteOriginal_eq asks target overwrite
    have same : (workspace.later surroundings).sessionFilePath = some workspace.filePath := reads
    have modified : (workspace.later surroundings).originalFileModifiedSinceLastSync
        (workspace.later surroundings).sessionFilePath = true := by
      rw [same]
      simp only [Workspace.originalFileModifiedSinceLastSync, Option.bind_some, Workspace.later, there,
        synchronised.valid, later]
      simp
    rw [Workspace.replaceTarget, original, unforced, unguarded, modified]
    exact .inr rfl
  | reserved _ kept => cases kept.symm.trans overwrite

/-- A save that is made directly saves well, whatever happens around it. -/
lemma Workspace.Direct.savesWell (direct : workspace.Direct surroundings.numbered request)
    (synchronised : workspace.Synchronised filePath) : workspace.SavesWell request surroundings := by
  constructor
  · intro modified
    exact direct.refuses synchronised modified
  · intro _ saved done zero
    obtain ⟨path, bytes, stores⟩ := (saveSegmentWithOptions_saves done).stores zero
    have target := stores.target
    refine ⟨path, _, stores.named, ?_, stores.stored, fun _ denotes => stores.bytes_eq denotes, ?_⟩
    · intro overwrite
      rw [Workspace.target, if_pos overwrite] at target
      exact (Option.some.inj target).symm
    · rintro rfl
      -- a free path is not that of the original, so the original was overwritten
      have present := (direct.original stores.asks target).1
      rw [Workspace.target] at target
      split at target
      · next overwrite =>
        exact stores.synced
          (direct.overwriteOriginal_eq stores.asks (Option.some.inj target) overwrite).2
      · rw [reserveOutputPath_free target] at present
        cases present
  · intro target bit unforced unguarded saved file done there later
    rcases direct.spares synchronised target (SaveRequest.overwrite_of_testBit bit) unforced unguarded
      done there later with same | same
    · exact .inl (by rw [same])
    · exact .inr (by rw [same]; exact there)

/-- Surroundings in which nothing fails and nobody else is at work. -/
def Surroundings.quiet (numbered : Path → Nat → Path) (now : Int) : Surroundings :=
  ⟨fun _ => false, none, numbered, id, now⟩

lemma writeOutput_quiet {numbered : Path → Nat → Path} {now : Int} (denotes : model.HasContent content)
    (positioned : 0 ≤ offset) (nonneg : 0 ≤ adjustedLength)
    (inside : offset + adjustedLength ≤ content.length) :
    writeOutput model (.quiet numbered now) offset adjustedLength =
      .ok (.ok (slice content offset.toNat adjustedLength.toNat)) := by
  have length : ((slice content offset.toNat adjustedLength.toNat).length : Int) = adjustedLength := by
    rw [length_slice_of_le (by omega)]
    omega
  rcases saveLoop_segmentsFrom none denotes positioned nonneg inside with ⟨bounded, -⟩ | wrote
  · exact absurd rfl bounded
  · simp only [writeOutput, Surroundings.quiet, wrote, bind, Except.bind, length]
    simp

/-- Where nothing fails, what the original does not stop is saved, and the time of the original stays. -/
lemma Workspace.Asks.save_quiet {numbered : Path → Nat → Path} (asks : workspace.Asks request)
    (denotes : workspace.session.top.HasContent content) (other : workspace.overwriteOriginal request = false)
    (target : workspace.target numbered request = some path) (now : Int) : ∃ bytes,
    workspace.saveSegmentWithOptions request (.quiet numbered now) =
      .ok ⟨{ workspace with disk := workspace.disk.put path (some ⟨bytes, now⟩) }, 0, some path⟩ := by
  have inside := adjustedLength_le workspace request
  rw [Session.computedFileSize, computedFileSize_eq denotes] at inside
  have output := @writeOutput_quiet _ _ _ _ numbered now denotes asks.positioned
    asks.adjustedLength_nonneg inside
  refine ⟨slice content request.offset.toNat (workspace.adjustedLength request).toNat, ?_⟩
  rw [asks.saveSegmentWithOptions_eq, Workspace.refusesModified, other]
  rw [Workspace.target] at target
  split at target
  · next overwrite =>
    cases target
    rw [if_pos overwrite, Workspace.saveOverwriting, output, other]
    rfl
  · next kept =>
    rw [if_neg kept, Workspace.saveReserved]
    simp only [Surroundings.quiet] at output ⊢
    rw [target, output]
    rfl

/-- A save that goes well in all surroundings is made directly. -/
lemma Workspace.direct_of_savesWell {numbered : Path → Nat → Path}
    (denotes : workspace.session.top.HasContent content)
    (saves : ∀ now, workspace.SavesWell request (.quiet numbered now)) :
    workspace.Direct numbered request := by
  constructor
  · intro modified
    by_contra outside
    cases (saveSegmentWithOptions_of_not_asks outside).symm.trans ((saves 0).refuses modified)
  · intro asks target
    by_contra missed
    have other : workspace.overwriteOriginal request = false := by
      rw [Workspace.target] at target
      rw [Workspace.overwriteOriginal]
      split at target
      · rw [Option.some.inj target, ← Bool.not_eq_true, Bool.and_eq_true, Bool.and_eq_true, decide_eq_true_eq]
        exact fun found => missed ⟨found.1.2, found.2⟩
      · next kept =>
        rw [Bool.eq_false_iff.mpr kept, Bool.false_and, Bool.false_and]
    obtain ⟨bytes, done⟩ := asks.save_quiet denotes other target (workspace.originalFileModificationTime + 1)
    by_cases modified : workspace.ModifiedOutside request
    · have same := Except.ok.inj (done.symm.trans ((saves _).refuses modified))
      cases congrArg Saved.result same
    · obtain ⟨path, file, named, -, stored, -, synced⟩ := (saves _).stores modified _ done rfl
      cases named
      cases (Disk.put_self _ _ _).symm.trans stored
      have late : workspace.originalFileModificationTime = workspace.originalFileModificationTime + 1 :=
        (synced rfl).1
      omega

end Runs

/-- In every workspace that can be reached, by calls on the session, by saves and by other programs,
a save that is made directly saves well, and where the segments denote a content no other save does so
whatever happens around it. -/
theorem reached_saves_well {disk : Disk} {filePath : Path} {original : OriginalFile}
    {modificationTime : Int} {checkpointFilePath : Nat → Path} {interval limit : Int} {workspace : Workspace}
    (reached : Transition.Reaches Workspace.step (fun _ _ => True)
      (.opened disk filePath original modificationTime checkpointFilePath interval limit) workspace)
    (request : SaveRequest) (numbered : Path → Nat → Path) :
    (workspace.Direct numbered request → ∀ surroundings : Surroundings, surroundings.numbered = numbered →
      workspace.SavesWell request surroundings) ∧
    ∀ content, workspace.session.top.HasContent content →
      (∀ surroundings : Surroundings, surroundings.numbered = numbered →
        workspace.SavesWell request surroundings) → workspace.Direct numbered request := by
  have synchronised : workspace.Synchronised filePath := reached.invariant ⟨rfl, rfl⟩
    fun _ _ _ _ synchronised _ stepped => step_synchronised synchronised stepped
  constructor
  · rintro direct surroundings rfl
    exact direct.savesWell synchronised
  · intro content denotes saves
    exact Workspace.direct_of_savesWell denotes fun now => saves _ rfl

/-- A file of one byte at `file.bin`, and checkpoint files beside it. -/
def smallWorkspace : Workspace :=
  .opened (fun _ => none) "file.bin" ⟨[1], by decide⟩ 10 (fun name => "checkpoint" ++ toString name)
    0 memoryBufferLimit

def quietSurroundings : Surroundings := .quiet (fun path number => path ++ toString number) 30

/-- The whole content to `file.bin`, which may be overwritten. -/
def overwriteRequest : SaveRequest := ⟨"file.bin", 1, 0, 0, none⟩

theorem reached_saves_well_after_insert : ∃ workspace : Workspace,
    Transition.Reaches Workspace.step (fun _ _ => True) smallWorkspace workspace ∧
      workspace.Direct quietSurroundings.numbered overwriteRequest ∧
      workspace.ModifiedOutside overwriteRequest ∧
      workspace.SavesWell overwriteRequest quietSurroundings := by
  obtain ⟨workspace, reached, shows⟩ := Transition.exists_reaches Workspace.step (fun _ _ => True)
    smallWorkspace (fun workspace => decide (workspace.filePath = "file.bin" ∧
      workspace.disk "file.bin" = some ⟨[2], 20⟩ ∧ workspace.originalFileModificationTime = 10 ∧
      workspace.sessionFilePath = some "file.bin" ∧
      workspace.session.computedFileSize = 2))
    [.call (.insertBytes 0 (some fun _ => 7) 1), .outside "file.bin" (some ⟨[2], 20⟩)]
    (by decide +kernel)
  obtain ⟨path, there, time, reads, size⟩ := of_decide_eq_true shows
  have direct : workspace.Direct quietSurroundings.numbered overwriteRequest := by
    refine ⟨fun _ => ⟨by decide, by decide, by rw [size]; decide⟩, fun _ _ => ?_⟩
    rw [path, there]
    exact ⟨rfl, reads⟩
  refine ⟨workspace, reached, direct, ⟨path.symm, by decide, by decide, rfl, ?_⟩,
    (reached_saves_well reached _ _).1 direct _ rfl⟩
  exact ⟨⟨[2], 20⟩, path ▸ there, by rw [time]; decide⟩

/-- After a checkpoint the session reads from the checkpoint file, so the checks of a save do not look
at the original: what others have written to it is replaced. -/
theorem save_after_checkpoint_clobbers : ∃ workspace : Workspace,
    Transition.Reaches Workspace.step (fun _ _ => True) smallWorkspace workspace ∧
      workspace.ModifiedOutside overwriteRequest ∧
      workspace.disk "file.bin" = some ⟨[2], 20⟩ ∧ ∃ saved,
      workspace.saveSegmentWithOptions overwriteRequest quietSurroundings = .ok saved ∧
      saved.result = 0 ∧ saved.workspace.disk "file.bin" = some ⟨[1], 30⟩ ∧
      saved.workspace.originalFileModificationTime = 10 := by
  obtain ⟨workspace, reached, shows⟩ := Transition.exists_reaches Workspace.step (fun _ _ => True)
    smallWorkspace (fun workspace => decide (workspace.filePath = "file.bin" ∧
      workspace.disk "file.bin" = some ⟨[2], 20⟩ ∧ workspace.originalFileModificationTime = 10) &&
      match workspace.saveSegmentWithOptions overwriteRequest quietSurroundings with
      | .ok saved => decide (saved.result = 0 ∧ saved.workspace.disk "file.bin" = some ⟨[1], 30⟩ ∧
        saved.workspace.originalFileModificationTime = 10)
      | .error _ => false)
    [.call .createCheckpoint, .outside "file.bin" (some ⟨[2], 20⟩)]
    (by decide +kernel)
  rw [Bool.and_eq_true] at shows
  obtain ⟨path, there, time⟩ := of_decide_eq_true shows.1
  cases saves : workspace.saveSegmentWithOptions overwriteRequest quietSurroundings with
  | error fault =>
    rw [saves] at shows
    cases shows.2
  | ok saved =>
    rw [saves] at shows
    refine ⟨workspace, reached, ⟨path.symm, by decide, by decide, rfl, ?_⟩, there, saved, saves,
      of_decide_eq_true shows.2⟩
    exact ⟨⟨[2], 20⟩, path ▸ there, by rw [time]; decide⟩

end OmegaEdit
