import OmegaEdit.Anchors

/-! Replacing a range by bytes of another length is a delete and an insert in one
transaction. Undo answers with a negative serial, which the rollback takes for a
failure, and it undoes the whole enclosing transaction. So a replacement is all or
nothing only when the insert is accepted after the delete. -/
namespace OmegaEdit
open Splice
open Transition (bind_eq_ok)

namespace Session
variable {session next : Session} {content : List Byte} {offset length result : Int}

/-- What lets a session delete at an offset. -/
def TakesDelete (session : Session) (offset length : Int) : Prop :=
  session.changesPaused = false ∧ validNonnegativeRange offset length = true ∧ 0 < length ∧
    offset < session.computedFileSize ∧ 0 < session.nextChangeSerial

/-- What lets a session of this size and with this many changes take more bytes. -/
def TakesInsert (size changes length : Int) : Prop :=
  size + length ≤ int64Max ∧ length ≠ int64Max ∧ changes < int64Max

/-- A call that returns a serial has passed each test on the way. -/
lemma passes_test {test : Prop} [Decidable test] {answer : Int}
    {rest : Except Fault (Session × Int)} (refused : answer ≤ 0) (positive : 0 < result)
    (done : (if test then .ok (session, answer) else rest) = .ok (next, result)) :
    ¬ test ∧ rest = .ok (next, result) := by
  split at done
  · cases done
    omega
  · next fails => exact ⟨fails, done⟩

lemma takesDelete_of_pos (done : session.delete offset length = .ok (next, result))
    (positive : 0 < result) : session.TakesDelete offset length := by
  obtain ⟨valid, done⟩ := passes_test (by decide) positive done
  obtain ⟨nonempty, done⟩ := passes_test (by decide) positive done
  obtain ⟨_, done⟩ := passes_test (by decide) positive done
  obtain ⟨exhausted, done⟩ := passes_test (by decide) positive done
  obtain ⟨outside, _⟩ := passes_test (by decide) positive done
  rw [Bool.not_eq_false] at valid
  have bounds := validNonnegativeRange_iff.mp valid
  refine ⟨?_, valid, by omega, by omega, by omega⟩
  simpa using fun paused => outside (.inl paused)

lemma delete_pos (denotes : session.top.HasContent content)
    (takes : session.TakesDelete offset length) :
    ∃ next result, session.delete offset length = .ok (next, result) ∧ 0 < result := by
  obtain ⟨running, valid, positive, inside, serial⟩ := takes
  have size := session.size_eq_length denotes
  obtain ⟨reached, _, rangeEnd⟩ := validNonnegativeRange_iff.mp valid
  generalize clipped : min length (session.computedFileSize - offset) = effectiveLength
  obtain ⟨deleted, captured, bytes, small⟩ := captureSessionRangePayload_eq denotes reached
    (by omega : 0 ≤ effectiveLength) (by omega)
  have whole : (deleted.bytes.length : Int) = effectiveLength := by
    rw [bytes, length_slice_of_le (by omega)]
    omega
  obtain ⟨change, built⟩ : ∃ change, del session.nextChangeSerial offset effectiveLength deleted
      session.newTransactionBit = some change :=
    del_isSome (List.ne_nil_of_length_pos (by omega)) whole small
  have new := newChange_del (by omega) reached (by omega) (by omega) (by omega) captured built
  obtain ⟨start, segments, viewports, _, _, done⟩ := updateNew_eq denotes new
  refine ⟨session.marked.recorded (change.startingAt start) segments viewports, change.serial, ?_,
    new.serial_pos⟩
  rw [delete, if_neg (by simp [valid]), if_neg (by omega)]
  dsimp only
  rw [if_neg (by omega), if_neg (by omega), if_neg (by simp [running]; omega), clipped, captured]
  simp only [bind, Except.bind, determineChangeTransactionBit_eq, built]
  exact done

/-- A buffer of the largest size cannot be kept with its terminator. -/
lemma ins_isSome_iff {serial : Int} {memory : Nat → Byte} {bit : Bool} (new : 0 < serial)
    (valid : validNonnegativeRange offset length = true) (positive : 0 < length) :
    (ins serial offset (readMemory memory length) length bit).isSome ↔ length ≠ int64Max := by
  have kept : ((readMemory memory length).length : Int) = length := by
    rw [length_readMemory]
    omega
  rw [ins, if_neg (by simp [valid]; omega), populatePayloadInline, kept, if_neg (by omega)]
  by_cases largest : length = int64Max
  · simp [dataCapacityValid, largest]
  · have reached : 0 ≤ length := by omega
    simp [dataCapacityValid, largest, reached]

lemma takesInsert_of_pos {memory : Nat → Byte} (denotes : session.top.HasContent content)
    (positive : 0 < length)
    (done : session.insertBytes offset (some memory) length = .ok (next, result))
    (accepted : 0 < result) : TakesInsert content.length session.numChanges length := by
  have size := session.size_eq_length denotes
  obtain ⟨valid, done⟩ := passes_test (by decide) accepted done
  obtain ⟨_, done⟩ := passes_test (by decide) accepted done
  obtain ⟨_, done⟩ := passes_test (by decide) accepted done
  obtain ⟨overflow, done⟩ := passes_test (by decide) accepted done
  obtain ⟨exhausted, done⟩ := passes_test (by decide) accepted done
  rw [Bool.not_eq_false] at valid
  rw [Bool.not_eq_true, addOverflows_eq_false_iff, size] at overflow
  obtain ⟨serial, bounded⟩ := nextChangeSerial_of_pos exhausted
  refine ⟨overflow.1 positive, ?_, by rw [numChanges]; omega⟩
  split at done
  · have isSome : (ins session.nextChangeSerial offset (readMemory memory length) length
        session.newTransactionBit).isSome := by
      rw [Option.isSome_iff_ne_none]
      intro unbuilt
      rw [determineChangeTransactionBit_eq] at done
      dsimp only at done
      rw [unbuilt] at done
      cases done
      contradiction
    exact (ins_isSome_iff (by omega) valid positive).mp isSome
  · cases done
    contradiction

lemma insertBytes_pos {memory : Nat → Byte} (denotes : session.top.HasContent content)
    (running : session.changesPaused = false) (reached : 0 ≤ offset)
    (inside : offset ≤ content.length) (positive : 0 < length) (changed : 0 ≤ session.numChanges)
    (takes : TakesInsert content.length session.numChanges length) :
    ∃ next result, session.insertBytes offset (some memory) length = .ok (next, result) ∧
      0 < result := by
  obtain ⟨room, buffer, serial⟩ := takes
  have size := session.size_eq_length denotes
  have valid : validNonnegativeRange offset length = true :=
    validNonnegativeRange_iff.mpr ⟨reached, by omega, fun _ => by omega⟩
  have fits : addOverflows content.length length = false :=
    addOverflows_eq_false_iff.mpr ⟨fun _ => room, fun negative => by omega⟩
  have nextSerial : session.nextChangeSerial = session.numChanges + 1 := if_pos serial
  obtain ⟨change, built⟩ : ∃ change, ins session.nextChangeSerial offset (readMemory memory length)
      length session.newTransactionBit = some change :=
    Option.isSome_iff_exists.mp ((ins_isSome_iff (by omega) valid positive).mpr buffer)
  have new := newChange_ins (by omega) (validNonnegativeRange_iff.mp valid) positive (by omega)
    (by omega) built
  obtain ⟨start, segments, viewports, _, _, done⟩ := updateNew_eq denotes new
  refine ⟨session.marked.recorded (change.startingAt start) segments viewports, change.serial, ?_,
    new.serial_pos⟩
  rw [insertBytes, if_neg (by simp [valid]), if_neg (by omega)]
  dsimp only
  rw [if_neg (by omega), size, if_neg (by simp [fits]), if_neg (by omega),
    if_pos ⟨running, inside⟩, determineChangeTransactionBit_eq]
  dsimp only
  rw [built]
  exact done

lemma delete_outcome (offset length : Int) (denotes : session.top.HasContent content) :
    ∃ next serial, session.delete offset length = .ok (next, serial) ∧
      ((0 < serial ∧ session.TakesDelete offset length ∧
          next.top.HasContent ((PrimitiveEdit.delete offset length).splice content) ∧
          next.changesPaused = false ∧ next.numChanges = session.numChanges + 1) ∨
        (serial ≤ 0 ∧ ¬ session.TakesDelete offset length ∧ next.stack = session.stack)) := by
  obtain ⟨next, serial, done, outcome⟩ := step_primitive (.delete offset length) denotes
  replace done : session.delete offset length = .ok (next, serial) := done
  refine ⟨next, serial, done, ?_⟩
  rcases outcome with ⟨accepted, _, after, _, running, counted⟩ | ⟨answer, same⟩
  · exact .inl ⟨accepted, takesDelete_of_pos done accepted, after, running, counted⟩
  · refine .inr ⟨by omega, ?_, same⟩
    intro takes
    obtain ⟨_, _, again, positive⟩ := delete_pos denotes takes
    cases done.symm.trans again
    omega

/-- An insert inside the content is accepted exactly when the session takes it. -/
lemma insertBytes_outcome (memory : Nat → Byte) (denotes : session.top.HasContent content)
    (running : session.changesPaused = false) (reached : 0 ≤ offset)
    (inside : offset ≤ content.length) (positive : 0 < length) (changed : 0 ≤ session.numChanges) :
    ∃ next serial, session.insertBytes offset (some memory) length = .ok (next, serial) ∧
      ((0 < serial ∧ TakesInsert content.length session.numChanges length ∧
          next.top.HasContent (splice content offset.toNat 0 (readMemory memory length))) ∨
        (serial ≤ 0 ∧ ¬ TakesInsert content.length session.numChanges length)) := by
  obtain ⟨next, serial, done, outcome⟩ :=
    step_primitive (.insert offset (some memory) length) denotes
  replace done : session.insertBytes offset (some memory) length = .ok (next, serial) := done
  refine ⟨next, serial, done, ?_⟩
  rcases outcome with ⟨accepted, _, after, _⟩ | ⟨answer, _⟩
  · exact .inl ⟨accepted, takesInsert_of_pos denotes positive done accepted, after⟩
  · refine .inr ⟨by omega, ?_⟩
    intro takes
    obtain ⟨_, _, again, accepted⟩ :=
      insertBytes_pos denotes running reached inside positive changed takes
    cases done.symm.trans again
    omega

lemma undoTransaction_nonpos {suspended : Nat}
    (done : session.undoTransaction suspended = .ok (next, result)) : result ≤ 0 := by
  unfold undoTransaction at done
  dsimp only at done
  split at done
  · cases done
    decide
  · next serials =>
    obtain ⟨outcome, _, done⟩ := bind_eq_ok.mp done
    cases outcome with
    | none =>
      obtain ⟨_, _, done⟩ := bind_eq_ok.mp done
      cases done
      decide
    | some segments =>
      obtain ⟨_, _, done⟩ := bind_eq_ok.mp done
      cases done
      cases changes : lastTransaction session.top.changes with
      | nil => exact Int.le_refl 0
      | cons first rest =>
        rw [changes] at serials
        simp only [List.any_cons, Bool.or_eq_true, decide_eq_true_eq, not_or] at serials
        show -first.serial ≤ 0
        omega

lemma undoTransformCheckpoint_nonpos (session : Session) :
    session.undoTransformCheckpoint.2 ≤ 0 := by
  unfold undoTransformCheckpoint
  split
  · next change _ _ =>
    split
    · exact Int.le_refl 0
    · split
      · exact (by decide : (-1 : Int) ≤ 0)
      · split
        · exact (by decide : (-1 : Int) ≤ 0)
        · show -change.serial ≤ 0
          omega
  · exact Int.le_refl 0

/-- Undo answers with a serial that is not positive, whether it undoes something or not. -/
lemma undoLastChange_nonpos (done : session.undoLastChange = .ok (next, result)) : result ≤ 0 := by
  unfold undoLastChange at done
  split at done
  · cases done
    exact Int.le_refl 0
  · dsimp only at done
    split at done
    · cases done
      exact Int.le_refl 0
    · split at done
      · have answer := undoTransformCheckpoint_nonpos
          (session.withStack session.stack.suspendPlainCheckpointModelsForUndo.1)
        split at done
        · cases done
          exact answer
        · cases done
          exact answer
      · exact undoTransaction_nonpos done

lemma scopedTransaction_eq {body : Session → Except Fault (Session × Int)}
    {outcome : Except Fault (Session × Int)} (run : session.scopedTransaction body = outcome) :
    ∃ (start : Session) (close : Session → Session), start.stack = session.stack ∧
      start.changesPaused = session.changesPaused ∧ (∀ final, (close final).stack = final.stack) ∧
      (do let (final, result) ← body start; .ok (close final, result)) = outcome := by
  unfold scopedTransaction at run
  split at run
  · refine ⟨session.beginTransaction.1, fun final => final.endTransaction.1, ?_, ?_, ?_, run⟩
    · unfold beginTransaction
      split <;> rfl
    · unfold beginTransaction
      split <;> rfl
    · intro final
      dsimp only [endTransaction]
      split <;> rfl
  · refine ⟨session, id, rfl, rfl, fun _ => rfl, ?_⟩
    rw [← run]
    cases body session with
    | error fault | ok answer => rfl

/-- The number of bytes a replacement removes. -/
def removedLength (session : Session) (offset deleteLength : Int) : Int :=
  min deleteLength (session.computedFileSize - offset)

/-- A replacement is all or nothing, and it reports a failed rollback only when the removed bytes
are missing. -/
def ReplacesWhole (session : Session) (offset deleteLength : Int) (bytes : BytesPointer)
    (insertLength : Int) : Prop :=
  let removed := (session.removedLength offset deleteLength).toNat
  ∃ next result, session.replaceBytes offset deleteLength bytes insertLength = .ok (next, result) ∧
    ((0 < result ∧ next.content = Splice.splice session.content offset.toNat removed
        (readPointer bytes insertLength)) ∨
      (result ≤ 0 ∧ next.content = session.content ∧
        next.stack.activeChanges = session.stack.activeChanges)) ∧ (result = replaceRollbackFailed →
      next.content = Splice.splice session.content offset.toNat removed [])

/-- The delete is accepted but the insert after it is not: the bytes exceed the largest size, or
the serials are used up. -/
def ReplaceGivesUp (session : Session) (offset deleteLength : Int) (bytes : BytesPointer)
    (insertLength : Int) : Prop :=
  bytes.isSome ∧ 0 < insertLength ∧ deleteLength ≠ insertLength ∧
    session.TakesDelete offset deleteLength ∧
    ¬ TakesInsert (session.computedFileSize - session.removedLength offset deleteLength)
      (session.numChanges + 1) insertLength

section Replacement
variable {deleteLength insertLength : Int} {bytes : BytesPointer}

lemma replacesWhole_of_unchanged
    (done : session.replaceBytes offset deleteLength bytes insertLength = .ok (next, result))
    (answer : result = 0 ∨ result = -1) (same : next.stack = session.stack) :
    session.ReplacesWhole offset deleteLength bytes insertLength := by
  refine ⟨next, result, done, .inr ⟨by omega, ?_, by rw [same]⟩, ?_⟩
  · rw [content, top, same]
    rfl
  · intro failed
    rw [replaceRollbackFailed] at failed
    omega

lemma replacesWhole_of_step (edit : PrimitiveEdit) (denotes : session.top.HasContent content)
    (single : session.replaceBytes offset deleteLength bytes insertLength = session.step edit.call)
    (splice : edit.splice content = splice content offset.toNat
      (session.removedLength offset deleteLength).toNat (readPointer bytes insertLength)) :
    session.ReplacesWhole offset deleteLength bytes insertLength := by
  obtain ⟨next, result, done, outcome⟩ := step_primitive edit denotes
  rw [← single] at done
  rcases outcome with ⟨positive, _, after, _⟩ | ⟨answer, same⟩
  · refine ⟨next, result, done, .inl ⟨positive, ?_⟩, ?_⟩
    · have before : session.content = content := denotes.content_eq
      rw [before, ← splice]
      exact after.content_eq
    · intro failed
      rw [replaceRollbackFailed] at failed
      omega
  · exact replacesWhole_of_unchanged done answer same

lemma replaceBytes_cases (memory : Nat → Byte) (denotes : session.top.HasContent content)
    (valid : validNonnegativeRange offset deleteLength = true) (deletes : 0 < deleteLength)
    (inserts : 0 < insertLength) (differ : deleteLength ≠ insertLength) :
    let removed := session.removedLength offset deleteLength
    let outcome := session.replaceBytes offset deleteLength (some memory) insertLength
    (∃ next, outcome = .ok (next, 0) ∧ next.stack = session.stack ∧
      ¬ session.TakesDelete offset deleteLength) ∨ session.TakesDelete offset deleteLength ∧
      ((∃ next result, outcome = .ok (next, result) ∧ 0 < result ∧ next.top.HasContent
        (splice content offset.toNat removed.toNat (readMemory memory insertLength)) ∧
        TakesInsert (session.computedFileSize - removed) (session.numChanges + 1) insertLength) ∨
      ¬ TakesInsert (session.computedFileSize - removed) (session.numChanges + 1) insertLength ∧
        ∀ next result, outcome = .ok (next, result) → result = replaceRollbackFailed) := by
  dsimp only
  generalize run : session.replaceBytes offset deleteLength (some memory) insertLength = outcome
  rw [replaceBytes, if_neg (by simp [valid]; omega), if_neg (by simp), if_neg (by omega),
    if_neg (by omega), if_neg (by omega), if_neg differ] at run
  have size := session.size_eq_length denotes
  have reached := (validNonnegativeRange_iff.mp valid).1
  obtain ⟨start, close, stackEq, pausedEq, closeEq, rfl⟩ := scopedTransaction_eq run
  have topEq : start.top = session.top := by rw [top, stackEq, top]
  have startDenotes : start.top.HasContent content := by rwa [topEq]
  have takesEq : start.TakesDelete offset deleteLength ↔ session.TakesDelete offset deleteLength := by
    unfold TakesDelete computedFileSize nextChangeSerial numChanges
    rw [topEq, pausedEq]
  obtain ⟨middle, deleteSerial, deleted, outcome⟩ := delete_outcome offset deleteLength startDenotes
  simp only [deleted, bind, Except.bind]
  rcases outcome with ⟨accepted, takes, between, running, counted⟩ | ⟨refused, untaken, same⟩
  · replace takes := takesEq.mp takes
    refine .inr ⟨takes, ?_⟩
    obtain ⟨_, _, _, inside, serial⟩ := takes
    replace between : middle.top.HasContent (splice content offset.toNat
      (min deleteLength ((content.length : Int) - offset)).toNat []) := between
    rw [removedLength, size]
    generalize removedEq : min deleteLength ((content.length : Int) - offset) = removed at between ⊢
    have shorter : (content.length : Int) - removed =
        (splice content offset.toNat removed.toNat []).length := by
      rw [length_splice _ _ (by omega), List.length_nil]
      omega
    have counts : middle.numChanges = session.numChanges + 1 := by
      rw [counted, numChanges, topEq, numChanges]
    have changed : 0 < session.numChanges + 1 := by
      unfold nextChangeSerial at serial
      split at serial
      · exact serial
      · cases serial
    rw [if_neg (by omega), shorter, ← counts]
    obtain ⟨after, insertSerial, inserted, outcome⟩ := insertBytes_outcome memory between running
      reached (by omega) inserts (by omega)
    simp only [inserted]
    rcases outcome with ⟨positive, fits, final⟩ | ⟨refused, unfit⟩
    · rw [if_neg (by omega)]
      refine .inl ⟨close after, insertSerial, rfl, positive, ?_, fits⟩
      rw [top, closeEq]
      rwa [splice_delete_insert _ _ (by omega)] at final
    · rw [if_pos refused]
      refine .inr ⟨unfit, ?_⟩
      intro next result ran
      obtain ⟨⟨final, reported⟩, undo, closed⟩ := bind_eq_ok.mp ran
      cases closed
      obtain ⟨⟨undone, serial⟩, undo, closed⟩ := bind_eq_ok.mp undo
      have nonpos := undoLastChange_nonpos undo
      dsimp only at closed
      rw [if_pos nonpos] at closed
      cases closed
      rfl
  · refine .inl ⟨close middle, ?_, ?_, fun takes => untaken (takesEq.mpr takes)⟩
    · rw [if_pos refused]
    · rw [closeEq, same, stackEq]

end Replacement

/-- A replacement is all or nothing unless it gives up. -/
theorem replaceBytes_whole_iff (denotes : session.top.HasContent content)
    (offset deleteLength : Int) (bytes : BytesPointer) (insertLength : Int) :
    session.ReplacesWhole offset deleteLength bytes insertLength ↔
      ¬ session.ReplaceGivesUp offset deleteLength bytes insertLength := by
  have size := session.size_eq_length denotes
  have before : session.content = content := denotes.content_eq
  constructor
  · rintro ⟨next, result, done, whole, rollback⟩ ⟨isSome, inserts, differ, takes, refuses⟩
    obtain ⟨memory, rfl⟩ := Option.isSome_iff_exists.mp isSome
    have ⟨_, valid, deletes, inside, _⟩ := takes
    have reached := (validNonnegativeRange_iff.mp valid).1
    rcases replaceBytes_cases memory denotes valid deletes inserts differ with
      ⟨_, _, _, untaken⟩ | ⟨_, ⟨_, _, _, _, _, fits⟩ | ⟨_, failed⟩⟩
    · exact untaken takes
    · exact refuses fits
    · -- the content cannot be both the old one and without the removed bytes
      obtain rfl := failed next result done
      rcases whole with ⟨positive, _⟩ | ⟨_, same, _⟩
      · exact absurd positive (by decide)
      · have missing := congrArg List.length (same.symm.trans (rollback rfl))
        rw [before, length_splice _ _ (by omega), removedLength, size, List.length_nil]
          at missing
        omega
  · intro completes
    by_cases invalid : validNonnegativeRange offset deleteLength = false ∨ insertLength < 0
    · exact replacesWhole_of_unchanged (by rw [replaceBytes, if_pos invalid]) (.inl rfl) rfl
    have valid : validNonnegativeRange offset deleteLength = true := by
      simpa using fun wrong => invalid (.inl wrong)
    obtain ⟨reached, nonneg, _⟩ := validNonnegativeRange_iff.mp valid
    by_cases null : bytes.isNone ∧ insertLength > 0
    · exact replacesWhole_of_unchanged (by rw [replaceBytes, if_neg invalid, if_pos null])
        (.inr rfl) rfl
    by_cases nothing : deleteLength = 0 ∧ insertLength = 0
    · exact replacesWhole_of_unchanged
        (by rw [replaceBytes, if_neg invalid, if_neg null, if_pos nothing]) (.inl rfl) rfl
    have unfolded := replaceBytes.eq_1 session offset deleteLength bytes insertLength
    rw [if_neg invalid, if_neg null, if_neg nothing] at unfolded
    by_cases inserting : deleteLength = 0
    · rw [if_pos inserting] at unfolded
      refine replacesWhole_of_step (.insert offset bytes insertLength) denotes unfolded ?_
      have removed : (session.removedLength offset deleteLength).toNat = 0 := by
        rw [removedLength]
        omega
      rw [removed]
      rfl
    by_cases deleting : insertLength = 0
    · rw [if_neg inserting, if_pos deleting] at unfolded
      refine replacesWhole_of_step (.delete offset deleteLength) denotes unfolded ?_
      rw [removedLength, size, deleting]
      cases bytes <;> rfl
    by_cases same : deleteLength = insertLength
    · rw [if_neg inserting, if_neg deleting, if_pos same] at unfolded
      refine replacesWhole_of_step (.overwrite offset bytes insertLength) denotes unfolded ?_
      rw [removedLength, size, same]
      rfl
    obtain ⟨memory, rfl⟩ : ∃ memory, bytes = some memory := by
      cases bytes with
      | none => exact absurd ⟨rfl, by omega⟩ null
      | some memory => exact ⟨memory, rfl⟩
    rcases replaceBytes_cases memory denotes valid (by omega) (by omega) same with
      ⟨next, done, unchanged, _⟩ | ⟨takes, ⟨next, result, done, positive, after, _⟩ | ⟨refuses, _⟩⟩
    · exact replacesWhole_of_unchanged done (.inl rfl) unchanged
    · refine ⟨next, result, done, .inl ⟨positive, ?_⟩, ?_⟩
      · rw [before]
        exact after.content_eq
      · intro failed
        rw [replaceRollbackFailed] at failed
        omega
    · exact absurd ⟨rfl, by omega, same, takes, refuses⟩ completes

theorem replaceBytes_whole_iff_grows :
    let session := createSession (some ⟨[97, 98], by decide⟩) 0 0
    session.top.HasContent [97, 98] ∧ session.ReplacesWhole 0 1 (some fun _ => 99) 2 := by
  have denotes := createSession_denotes (some ⟨[97, 98], by decide⟩) 0 0
  refine ⟨denotes, (replaceBytes_whole_iff denotes 0 1 (some fun _ => 99) 2).mpr ?_⟩
  rintro ⟨_, _, _, _, refuses⟩
  exact refuses ⟨by decide, by decide, by decide⟩

/-- A replacement by too many bytes undoes the insert before it in the same transaction, and says
that its own delete could not be undone. -/
theorem replaceBytes_undoes_transaction :
    ∃ session next, (createSession none 0 0).beginTransaction.1.insertBytes 0 (some fun _ => 97) 2 =
        .ok (session, 1) ∧ session.content = [97, 97] ∧
      session.replaceBytes 0 1 (some fun _ => 98) int64Max = .ok (next, replaceRollbackFailed) ∧
      next.content = [] ∧ next.stack.activeChanges = [] ∧
      ¬ session.ReplacesWhole 0 1 (some fun _ => 98) int64Max := by
  refine ⟨_, _, rfl, rfl, rfl, rfl, rfl, ?_⟩
  rintro ⟨next, result, done, whole, _⟩
  cases done
  rcases whole with ⟨positive, _⟩ | ⟨_, same, _⟩
  · exact absurd positive (by decide)
  · exact absurd same (by decide)

end Session

end OmegaEdit
