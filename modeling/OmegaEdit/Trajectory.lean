import OmegaEdit.SingleModel

/-! The undo and redo trajectory. The content after any number of undos is the
replay of the transactions that are left, and redo goes the same way back. Two
sessions that differ in the snapshot interval and in the payload limit, and so
in their snapshots, their segments and the storage of their payloads, answer
every call alike and show the same content. -/
namespace OmegaEdit

/-- Sessions that agree on everything but settings, snapshots, segments, viewports and how
payloads are stored. -/
structure Session.Alike (left right : Session) : Prop where
  leftSingle : left.Single
  rightSingle : right.Single
  fileBytes : left.top.fileBytes = right.top.fileBytes
  base : left.top.changeSerialBase = right.top.changeSerialBase
  changes : left.top.changes.map Change.plain = right.top.changes.map Change.plain
  undone : left.top.changesUndone.map Change.plain = right.top.changesUndone.map Change.plain
  opened : left.transactionOpened = right.transactionOpened
  inProgress : left.transactionInProgress = right.transactionInProgress

namespace Session.Alike
variable {left right : Session}

section Related
variable (alike : left.Alike right)
include alike

lemma replay_eq :
    replay left.top.changes left.top.fileBytes = replay right.top.changes right.top.fileBytes := by
  rw [← replay_map_plain left.top.changes, ← replay_map_plain right.top.changes, alike.changes,
    alike.fileBytes]

lemma content_eq : left.content = right.content := by
  have leftContent : left.content = _ := alike.leftSingle.sound.content_eq
  have rightContent : right.content = _ := alike.rightSingle.sound.content_eq
  rw [leftContent, rightContent, alike.replay_eq]

lemma size_eq : left.computedFileSize = right.computedFileSize := by
  rw [left.size_eq_length alike.leftSingle.sound.denotes,
    right.size_eq_length alike.rightSingle.sound.denotes, alike.replay_eq]

lemma numChanges_eq : left.numChanges = right.numChanges := by
  have length := congrArg List.length alike.changes
  rw [List.length_map, List.length_map] at length
  rw [numChanges, numChanges, Model.numChanges, Model.numChanges, length, alike.base]

lemma nextChangeSerial_eq : left.nextChangeSerial = right.nextChangeSerial := by
  rw [nextChangeSerial, nextChangeSerial, alike.numChanges_eq]

lemma changesPaused_eq : left.changesPaused = right.changesPaused :=
  alike.leftSingle.running.trans alike.rightSingle.running.symm

lemma serials_eq : left.top.changes.map Change.serial = right.top.changes.map Change.serial := by
  have serials := congrArg (List.map Change.serial) alike.changes
  rw [List.map_map, List.map_map] at serials
  exact serials

lemma transactionBit_eq : left.transactionBit = right.transactionBit := by
  have last (session : Session) : session.transactionBit =
      (session.top.changes.map Change.transactionBit).getLast?.getD true := by
    rw [transactionBit, lastChange, List.getLast?_map]
    cases session.top.changes.getLast? <;> rfl
  have bits := congrArg (List.map Change.transactionBit) alike.changes
  rw [List.map_map, List.map_map] at bits
  rw [last, last]
  exact congrArg (fun bits => bits.getLast?.getD true) bits

lemma state_eq : left.transactionState = right.transactionState := by
  rw [transactionState, transactionState, alike.opened, alike.inProgress]

lemma of_stack_eq {leftNext rightNext : Session} (leftStack : leftNext.stack = left.stack)
    (rightStack : rightNext.stack = right.stack)
    (leftRunning : leftNext.changesPaused = left.changesPaused)
    (rightRunning : rightNext.changesPaused = right.changesPaused)
    (opened : leftNext.transactionOpened = rightNext.transactionOpened)
    (inProgress : leftNext.transactionInProgress = rightNext.transactionInProgress) :
    leftNext.Alike rightNext := by
  have leftTop : leftNext.top = left.top := congrArg ModelStack.top leftStack
  have rightTop : rightNext.top = right.top := congrArg ModelStack.top rightStack
  refine ⟨alike.leftSingle.of_stack_eq leftStack leftRunning,
    alike.rightSingle.of_stack_eq rightStack rightRunning, ?_, ?_, ?_, ?_, opened, inProgress⟩
  all_goals rw [leftTop, rightTop]
  · exact alike.fileBytes
  · exact alike.base
  · exact alike.changes
  · exact alike.undone

lemma newTransactionBit_eq : left.newTransactionBit = right.newTransactionBit := by
  rw [newTransactionBit, newTransactionBit, determineChangeTransactionBit,
    determineChangeTransactionBit, alike.state_eq, alike.transactionBit_eq]
  split <;> rfl

lemma marked : left.marked.Alike right.marked := by
  refine alike.of_stack_eq marked_stack marked_stack marked_paused marked_paused ?_ ?_
  · rw [Session.marked, Session.marked, determineChangeTransactionBit,
      determineChangeTransactionBit, alike.state_eq]
    split <;> exact alike.opened
  · rw [Session.marked, Session.marked, determineChangeTransactionBit,
      determineChangeTransactionBit, alike.state_eq]
    split
    · exact alike.inProgress
    · rfl
    · exact alike.inProgress

lemma updateNew {leftChange rightChange : Change} (leftNew : NewChange left.top leftChange)
    (rightNew : NewChange right.top rightChange)
    (leftBit : leftChange.transactionBit = left.newTransactionBit)
    (same : leftChange.plain = rightChange.plain) :
    Together Session.Alike (left.marked.updateNew (some leftChange))
      (right.marked.updateNew (some rightChange)) := by
  have rightBit : rightChange.transactionBit = right.newTransactionBit := by
    rw [← alike.newTransactionBit_eq, ← leftBit]
    exact (congrArg Change.transactionBit same).symm
  obtain ⟨leftStart, leftSegments, leftViewports, leftApplied, leftAdjusted, leftDone⟩ :=
    updateNew_eq alike.leftSingle.sound.denotes leftNew
  obtain ⟨rightStart, rightSegments, rightViewports, rightApplied, rightAdjusted, rightDone⟩ :=
    updateNew_eq alike.rightSingle.sound.denotes rightNew
  have serial : leftChange.serial = rightChange.serial := by
    have plainSerial := congrArg Change.serial same
    exact plainSerial
  rw [leftDone, rightDone, serial]
  have marked := alike.marked
  have leftEdited : left.Edited (fun _ => True) _ _ :=
    .recorded alike.leftSingle.running (leftNew.startingAt leftStart) leftBit trivial leftApplied
      leftAdjusted
  have rightEdited : right.Edited (fun _ => True) _ _ :=
    .recorded alike.rightSingle.running (rightNew.startingAt rightStart) rightBit trivial
      rightApplied rightAdjusted
  refine .pure ⟨leftEdited.single alike.leftSingle, rightEdited.single alike.rightSingle,
    ?_, ?_, ?_, ?_, ?_, ?_⟩ _
  · rw [recorded_top, recorded_top, marked_top, marked_top]
    exact alike.fileBytes
  · rw [recorded_top, recorded_top, marked_top, marked_top]
    exact alike.base
  · rw [recorded_top, recorded_top, marked_top, marked_top]
    show (left.top.changes ++ [_]).map Change.plain = (right.top.changes ++ [_]).map Change.plain
    rw [List.map_append, List.map_append, alike.changes]
    exact congrArg (fun change => _ ++ [change]) same
  · rw [recorded_top, recorded_top]
  · rw [recorded_opened, recorded_opened]
    exact marked.opened
  · rw [recorded_inProgress, recorded_inProgress]
    exact marked.inProgress

lemma captureSessionRangePayload {offset length : Int} (reached : 0 ≤ offset) (nonneg : 0 ≤ length)
    (inside : offset + length ≤ right.computedFileSize) :
    ∃ leftPayload rightPayload,
      left.captureSessionRangePayload offset length = .ok (some leftPayload) ∧
      right.captureSessionRangePayload offset length = .ok (some rightPayload) ∧
      leftPayload.bytes = rightPayload.bytes ∧ (rightPayload.bytes.length : Int) = length ∧
      (leftPayload.storage ≠ .fileBacked → (leftPayload.bytes.length : Int) ≤ memoryBufferLimit) ∧
      (rightPayload.storage ≠ .fileBacked →
        (rightPayload.bytes.length : Int) ≤ memoryBufferLimit) := by
  have size := right.size_eq_length alike.rightSingle.sound.denotes
  have leftDenotes := alike.leftSingle.sound.denotes
  rw [alike.replay_eq] at leftDenotes
  rw [size] at inside
  obtain ⟨leftPayload, leftDone, leftBytes, leftSmall⟩ :=
    captureSessionRangePayload_eq leftDenotes reached nonneg inside
  obtain ⟨rightPayload, rightDone, rightBytes, rightSmall⟩ :=
    captureSessionRangePayload_eq alike.rightSingle.sound.denotes reached nonneg inside
  refine ⟨leftPayload, rightPayload, leftDone, rightDone, leftBytes.trans rightBytes.symm, ?_,
    leftSmall, rightSmall⟩
  have length := Splice.length_slice_of_le (by omega : offset.toNat + length.toNat ≤
    (replay right.top.changes right.top.fileBytes).length)
  rw [rightBytes]
  omega

lemma insertBytes (offset : Int) (bytes : BytesPointer) (length : Int) :
    Together Session.Alike (left.insertBytes offset bytes length)
      (right.insertBytes offset bytes length) := by
  unfold Session.insertBytes
  rw [alike.size_eq, alike.nextChangeSerial_eq, alike.changesPaused_eq, determineChangeTransactionBit_eq,
    determineChangeTransactionBit_eq, alike.newTransactionBit_eq]
  refine .unless alike fun range => ?_
  rw [Bool.not_eq_false, validNonnegativeRange_iff] at range
  refine .unless alike fun empty => ?_
  have positive : 0 < length := by omega
  cases bytes with
  | none => exact .pure alike (-1)
  | some memory =>
    dsimp only
    refine .unless alike fun noSize => ?_
    refine .unless alike fun overflow => ?_
    rw [Bool.not_eq_true, addOverflows_eq_false_iff] at overflow
    refine .unless alike fun exhausted => ?_
    by_cases inside : right.changesPaused = false ∧ offset ≤ right.computedFileSize
    · simp only [if_pos inside]
      cases built : ins right.nextChangeSerial offset (readMemory memory length) length
          right.newTransactionBit with
      | none => exact .pure alike.marked (-1)
      | some change =>
        have rightNew := newChange_ins exhausted range positive inside.2 (overflow.1 positive) built
        rw [← alike.nextChangeSerial_eq] at exhausted
        rw [← alike.size_eq] at inside overflow
        have leftBuilt := built
        rw [← alike.nextChangeSerial_eq, ← alike.newTransactionBit_eq] at leftBuilt
        have leftNew :=
          newChange_ins exhausted range positive inside.2 (overflow.1 positive) leftBuilt
        refine alike.updateNew leftNew rightNew ?_ rfl
        rw [ins_eq_some leftBuilt]
        rfl
    · simp only [if_neg inside]
      exact .pure alike 0

lemma delete (offset length : Int) :
    Together Session.Alike (left.delete offset length) (right.delete offset length) := by
  rw [Session.delete, Session.delete, alike.size_eq, alike.nextChangeSerial_eq, alike.changesPaused_eq]
  refine .unless alike fun range => ?_
  rw [Bool.not_eq_false, validNonnegativeRange_iff] at range
  refine .unless alike fun empty => ?_
  refine .unless alike fun noSize => ?_
  refine .unless alike fun exhausted => ?_
  refine .unless alike fun outside => ?_
  dsimp only
  generalize effective : min length (right.computedFileSize - offset) = effectiveLength
  obtain ⟨leftPayload, rightPayload, leftCaptured, rightCaptured, sameBytes, whole, leftSmall,
    rightSmall⟩ := alike.captureSessionRangePayload range.1
      (by omega : 0 ≤ effectiveLength) (by omega)
  have rightNonempty : rightPayload.bytes ≠ [] := by
    rw [← List.length_pos_iff]
    omega
  have leftNonempty : leftPayload.bytes ≠ [] := by
    rw [sameBytes]
    exact rightNonempty
  have leftWhole : (leftPayload.bytes.length : Int) = effectiveLength := by
    rw [sameBytes]
    exact whole
  obtain ⟨rightChange, rightBuilt⟩ : ∃ change, del right.nextChangeSerial offset effectiveLength
      rightPayload right.newTransactionBit = some change :=
    del_isSome rightNonempty whole rightSmall
  obtain ⟨leftChange, leftBuilt⟩ : ∃ change, del left.nextChangeSerial offset effectiveLength
      leftPayload left.newTransactionBit = some change :=
    del_isSome leftNonempty leftWhole leftSmall
  have rightNew := newChange_del exhausted range.1 (by omega) (by omega) (by omega) rightCaptured
    rightBuilt
  have leftNew : NewChange left.top leftChange := by
    rw [← alike.nextChangeSerial_eq] at exhausted
    rw [← alike.size_eq] at effective outside
    exact newChange_del exhausted range.1 (by omega) (by omega) (by omega) leftCaptured leftBuilt
  obtain ⟨leftStorage, _, _, leftMade⟩ := del_eq_some leftBuilt
  obtain ⟨rightStorage, _, _, rightMade⟩ := del_eq_some rightBuilt
  rw [← alike.nextChangeSerial_eq, leftCaptured, rightCaptured]
  simp only [bind, Except.bind, determineChangeTransactionBit_eq]
  rw [leftBuilt, alike.nextChangeSerial_eq, rightBuilt]
  refine alike.updateNew leftNew rightNew ?_ ?_
  · rw [leftMade]
    rfl
  · rw [leftMade, rightMade, alike.nextChangeSerial_eq, alike.newTransactionBit_eq]
    simp only [Change.plain, sameBytes]

lemma overwriteBytes (offset : Int) (bytes : BytesPointer) (length : Int) :
    Together Session.Alike (left.overwriteBytes offset bytes length)
      (right.overwriteBytes offset bytes length) := by
  unfold Session.overwriteBytes
  rw [alike.size_eq, alike.nextChangeSerial_eq, alike.changesPaused_eq]
  refine .unless alike fun range => ?_
  rw [Bool.not_eq_false, validNonnegativeRange_iff] at range
  refine .unless alike fun empty => ?_
  have positive : 0 < length := by omega
  cases bytes with
  | none => exact .pure alike (-1)
  | some memory =>
    dsimp only
    refine .unless alike fun noSize => ?_
    refine .unless alike fun exhausted => ?_
    refine .unless alike fun outside => ?_
    have replacedLength : (if offset < right.computedFileSize
        then min length (right.computedFileSize - offset) else 0) =
        min length (right.computedFileSize - offset) := by
      split <;> omega
    rw [replacedLength]
    obtain ⟨leftPayload, rightPayload, leftCaptured, rightCaptured, sameBytes, whole, leftSmall,
      rightSmall⟩ := alike.captureSessionRangePayload range.1
        (by omega : 0 ≤ min length (right.computedFileSize - offset)) (by omega)
    rw [leftCaptured, rightCaptured]
    simp only [bind, Except.bind, determineChangeTransactionBit_eq, alike.newTransactionBit_eq]
    have sameBuilt : (ovr right.nextChangeSerial offset (readMemory memory length) length leftPayload
        right.newTransactionBit).isSome = (ovr right.nextChangeSerial offset
          (readMemory memory length) length rightPayload right.newTransactionBit).isSome := by
      rw [Bool.eq_iff_iff, ovr_isSome_iff leftSmall, ovr_isSome_iff rightSmall]
    cases rightBuilt : ovr right.nextChangeSerial offset (readMemory memory length) length
        rightPayload right.newTransactionBit with
    | none =>
      rw [rightBuilt] at sameBuilt
      have leftBuilt : ovr right.nextChangeSerial offset (readMemory memory length) length
          leftPayload right.newTransactionBit = none := by
        rw [← Option.not_isSome_iff_eq_none, sameBuilt]
        exact Bool.false_ne_true
      rw [leftBuilt]
      exact .pure alike.marked (-1)
    | some rightChange =>
      rw [rightBuilt] at sameBuilt
      obtain ⟨leftChange, leftBuilt⟩ := Option.isSome_iff_exists.mp sameBuilt
      have rightNew := newChange_ovr exhausted range positive (by omega) rightCaptured rightBuilt
      obtain ⟨leftStorage, _, leftMade⟩ := ovr_eq_some leftBuilt
      obtain ⟨rightStorage, _, rightMade⟩ := ovr_eq_some rightBuilt
      rw [leftBuilt]
      have leftNew : NewChange left.top leftChange := by
        rw [← alike.nextChangeSerial_eq] at exhausted leftBuilt
        rw [← alike.newTransactionBit_eq] at leftBuilt
        rw [← alike.size_eq] at leftCaptured outside
        exact newChange_ovr exhausted range positive (by omega) leftCaptured leftBuilt
      refine alike.updateNew leftNew rightNew ?_ ?_
      · rw [leftMade, alike.newTransactionBit_eq]
        rfl
      · rw [leftMade, rightMade]
        simp only [Change.plain, sameBytes]

/-- The lists of the two sides after an operation that touched only the top models. -/
lemma of_lists {leftNext rightNext : Session} (leftSingle : leftNext.Single)
    (rightSingle : rightNext.Single) (leftFrame : left.SameOutside leftNext)
    (rightFrame : right.SameOutside rightNext)
    (changes : leftNext.top.changes.map Change.plain = rightNext.top.changes.map Change.plain)
    (undone : leftNext.top.changesUndone.map Change.plain =
      rightNext.top.changesUndone.map Change.plain) : leftNext.Alike rightNext := by
  obtain ⟨⟨_, leftEq⟩, leftFile, leftBase⟩ := leftFrame
  obtain ⟨⟨_, rightEq⟩, rightFile, rightBase⟩ := rightFrame
  refine ⟨leftSingle, rightSingle, ?_, ?_, changes, undone, ?_, ?_⟩
  · have files := alike.fileBytes
    rw [Model.fileBytes_eq, Model.fileBytes_eq] at files ⊢
    rw [leftFile, rightFile]
    exact files
  · rw [leftBase, rightBase]
    exact alike.base
  · rw [leftEq, rightEq]
    exact alike.opened
  · rw [leftEq, rightEq]
    exact alike.inProgress

end Related

end Session.Alike

section Plain
variable {changes : List Change}

lemma lastTransaction_map_plain :
    lastTransaction (changes.map Change.plain) = (lastTransaction changes).map Change.plain :=
  Runs.trailingRun_map Change.transactionBit Change.plain changes

lemma beforeLastTransaction_map_plain :
    beforeLastTransaction (changes.map Change.plain) =
      (beforeLastTransaction changes).map Change.plain :=
  Runs.beforeTrailingRun_map Change.transactionBit Change.plain changes

lemma leadingRun_map_plain :
    Runs.leadingRun Change.transactionBit (changes.map Change.plain) =
      (Runs.leadingRun Change.transactionBit changes).map Change.plain :=
  Runs.leadingRun_map Change.transactionBit Change.plain changes

lemma map_negate_map_plain :
    (changes.map Change.negate).map Change.plain = (changes.map Change.plain).map Change.negate := by
  rw [List.map_map, List.map_map]
  rfl

lemma undoAnswer_map_plain :
    Session.undoAnswer (changes.map Change.plain) = Session.undoAnswer changes := by
  rw [Session.undoAnswer, Session.undoAnswer, lastTransaction_map_plain, ← map_negate_map_plain,
    List.head?_map, Option.map_map]
  rfl

lemma redoAnswer_map_plain :
    Session.redoAnswer (changes.map Change.plain) = Session.redoAnswer changes := by
  rw [Session.redoAnswer, Session.redoAnswer, leadingRun_map_plain, List.getLast?_map,
    Option.map_map]
  rfl

end Plain

namespace Session.Alike
variable {left right : Session}

lemma undo (alike : left.Alike right) :
    Together Session.Alike left.undoLastChange right.undoLastChange := by
  obtain ⟨leftNext, leftDone, leftSingle, leftFrame, leftChanges, leftUndone⟩ :=
    alike.leftSingle.undo
  obtain ⟨rightNext, rightDone, rightSingle, rightFrame, rightChanges, rightUndone⟩ :=
    alike.rightSingle.undo
  have answer : undoAnswer left.top.changes = undoAnswer right.top.changes := by
    rw [← undoAnswer_map_plain, alike.changes, undoAnswer_map_plain]
  rw [answer] at leftDone
  refine ⟨leftNext, rightNext, _, leftDone, rightDone,
    alike.of_lists leftSingle rightSingle leftFrame rightFrame ?_ ?_⟩
  · rw [leftChanges, rightChanges, ← beforeLastTransaction_map_plain, alike.changes,
      beforeLastTransaction_map_plain]
  · rw [leftUndone, rightUndone, List.map_append, List.map_append, map_negate_map_plain,
      map_negate_map_plain, ← lastTransaction_map_plain, alike.changes, lastTransaction_map_plain,
      alike.undone]

lemma redo (alike : left.Alike right) :
    Together Session.Alike left.redoLastUndo right.redoLastUndo := by
  obtain ⟨leftNext, leftDone, leftSingle, leftFrame, leftChanges, leftUndone⟩ :=
    alike.leftSingle.redo
  obtain ⟨rightNext, rightDone, rightSingle, rightFrame, rightChanges, rightUndone⟩ :=
    alike.rightSingle.redo
  have answer : redoAnswer left.top.changesUndone = redoAnswer right.top.changesUndone := by
    rw [← redoAnswer_map_plain, alike.undone, redoAnswer_map_plain]
  have run : (Runs.leadingRun Change.transactionBit left.top.changesUndone).map Change.plain =
      (Runs.leadingRun Change.transactionBit right.top.changesUndone).map Change.plain := by
    rw [← leadingRun_map_plain, alike.undone, leadingRun_map_plain]
  have length := congrArg List.length run
  rw [List.length_map, List.length_map] at length
  rw [answer] at leftDone
  refine ⟨leftNext, rightNext, _, leftDone, rightDone,
    alike.of_lists leftSingle rightSingle leftFrame rightFrame ?_ ?_⟩
  · rw [leftChanges, rightChanges, List.map_append, List.map_append, map_negate_map_plain,
      map_negate_map_plain, run, alike.changes]
  · rw [leftUndone, rightUndone, List.map_drop, List.map_drop, length, alike.undone]

lemma beginTransaction (alike : left.Alike right) :
    left.beginTransaction.1.Alike right.beginTransaction.1 := by
  rw [Session.beginTransaction, Session.beginTransaction, alike.state_eq]
  split
  · exact alike
  · exact alike.of_stack_eq rfl rfl rfl rfl rfl alike.inProgress

lemma endTransaction (alike : left.Alike right) :
    left.endTransaction.1.Alike right.endTransaction.1 := by
  rw [Session.endTransaction, Session.endTransaction, alike.state_eq]
  split
  · exact alike
  · exact alike.of_stack_eq rfl rfl rfl rfl rfl rfl

end Session.Alike

lemma Session.Edited.file_eq {session next : Session} {result : Int} {describes : Change → Prop}
    (edited : session.Edited describes next result) : next.top.file = session.top.file := by
  cases edited with
  | refused => rfl
  | unbuilt => rw [Session.marked_top]
  | dropped => rw [Session.freed_top, Session.marked_top, Model.freeChangesUndone]
  | recorded => rw [Session.recorded_top, Session.marked_top]

/-- Sessions that are alike and still over the same backing file. -/
def Session.AlikeOver (file : Option CheckpointFile) (left right : Session) : Prop :=
  left.Alike right ∧ left.top.file = file

/-- Primitive edits, transactions and undo do not see the settings. -/
lemma alikeOver_simulation (file : Option CheckpointFile) : EditSimulation (Session.AlikeOver file) where
  edit edit both := by
    refine .and ?_ fun done => ((edit.attempt _).edited done).file_eq.trans both.2
    cases edit with
    | insert offset bytes length => exact both.1.insertBytes offset bytes length
    | delete offset length => exact both.1.delete offset length
    | overwrite offset bytes length => exact both.1.overwriteBytes offset bytes length
  state both := both.1.state_eq
  begins both := by
    refine ⟨both.1.beginTransaction, ?_⟩
    rw [Session.beginTransaction]
    split <;> exact both.2
  ends both := by
    refine ⟨both.1.endTransaction, ?_⟩
    rw [Session.endTransaction]
    split <;> exact both.2
  undo both := both.1.undo.and fun done => by
    obtain ⟨next, undone, _, frame, _⟩ := both.1.leftSingle.undo
    cases undone.symm.trans done
    exact frame.file.trans both.2

namespace Session
variable {session left right : Session}

lemma Alike.refl (single : session.Single) : session.Alike session :=
  ⟨single, single, rfl, rfl, rfl, rfl, rfl, rfl⟩

lemma Alike.trans {middle : Session} (first : left.Alike middle) (second : middle.Alike right) :
    left.Alike right :=
  ⟨first.leftSingle, second.rightSingle, first.fileBytes.trans second.fileBytes,
    first.base.trans second.base, first.changes.trans second.changes,
    first.undone.trans second.undone, first.opened.trans second.opened,
    first.inProgress.trans second.inProgress⟩

/-- Every call inside one model is answered alike. -/
lemma AlikeOver.step {file : Option CheckpointFile} (both : AlikeOver file left right) {call : Call}
    (inside : call.InsideModel) : Together (AlikeOver file) (left.step call) (right.step call) := by
  have simulation := alikeOver_simulation file
  have alike := both.1
  cases call with
  | insertBytes offset bytes length => exact simulation.edit (.insert offset bytes length) both
  | delete offset length => exact simulation.edit (.delete offset length) both
  | overwriteBytes offset bytes length => exact simulation.edit (.overwrite offset bytes length) both
  | replaceBytes offset deleteLength bytes insertLength => exact simulation.replaceBytes both
  | beginTransaction =>
    refine ⟨_, _, left.beginTransaction.2, rfl, ?_, simulation.begins both⟩
    rw [Session.step, Session.beginTransaction, Session.beginTransaction, alike.state_eq]
    split <;> rfl
  | endTransaction =>
    refine ⟨_, _, left.endTransaction.2, rfl, ?_, simulation.ends both⟩
    rw [Session.step, Session.endTransaction, Session.endTransaction, alike.state_eq]
    split <;> rfl
  | undoLastChange => exact simulation.undo both
  | redoLastUndo =>
    refine alike.redo.and fun done => ?_
    obtain ⟨next, redone, _, frame, _⟩ := alike.leftSingle.redo
    cases redone.symm.trans done
    exact frame.file.trans both.2
  | setUndoSnapshotInterval interval =>
    rw [Session.step, Session.step, setUndoSnapshotInterval, setUndoSnapshotInterval]
    split
    · exact .pure both 0
    · refine .pure ?_ interval
      exact ⟨alike.of_stack_eq rfl rfl rfl rfl alike.opened alike.inProgress, both.2⟩
  | setChangeInlinePayloadLimit limit =>
    rw [Session.step, Session.step, setChangeInlinePayloadLimit, setChangeInlinePayloadLimit]
    split
    · exact .pure both 0
    · refine .pure ?_ limit
      exact ⟨alike.of_stack_eq rfl rfl rfl rfl alike.opened alike.inProgress, both.2⟩
  | _ => exact absurd inside (by simp [Call.InsideModel])

/-- Two sessions that differ in their settings answer a run of calls inside one model alike. -/
lemma AlikeOver.runAnswers {file : Option CheckpointFile} (calls : List Call)
    (inside : ∀ call ∈ calls, call.InsideModel) (both : AlikeOver file left right) :
    ∃ leftNext rightNext answers, left.runAnswers calls = .ok (leftNext, answers) ∧
      right.runAnswers calls = .ok (rightNext, answers) ∧ AlikeOver file leftNext rightNext := by
  induction calls generalizing left right with
  | nil => exact ⟨left, right, [], rfl, rfl, both⟩
  | cons call rest ih =>
    obtain ⟨leftMiddle, rightMiddle, result, leftStep, rightStep, middle⟩ :=
      both.step (inside call (by simp))
    obtain ⟨leftNext, rightNext, answers, leftRun, rightRun, related⟩ :=
      ih (fun other mem => inside other (by simp [mem])) middle
    refine ⟨leftNext, rightNext, result :: answers, ?_, ?_, related⟩
    · simp only [Session.runAnswers, leftStep, leftRun, bind, Except.bind]
    · simp only [Session.runAnswers, rightStep, rightRun, bind, Except.bind]

end Session

lemma createSession_single (original : Option OriginalFile) (interval limit : Int) :
    (createSession original interval limit).Single := by
  have empty : (createSession original interval limit).top.changes = [] := rfl
  have undone : (createSession original interval limit).top.changesUndone = [] := rfl
  have bytes : (createSession original interval limit).top.fileBytes = originalBytes original := by
    cases original <;> rfl
  refine ⟨rfl, rfl, rfl, ⟨?_, ?_, ?_, ?_, ?_, ?_⟩, ⟨?_, ?_⟩, ?_, ?_, ?_⟩
  · rw [empty, bytes]
    exact createSession_denotes original interval limit
  · rw [empty, undone]
    exact fitsAll_nil _
  · rw [bytes]
    cases original with
    | none => decide
    | some original => exact original.small
  · intro snapshot mem
    cases mem
  all_goals
    intro change mem
    cases mem

lemma createSession_alike (original : Option OriginalFile) (interval limit otherInterval otherLimit :
    Int) : (createSession original interval limit).Alike
      (createSession original otherInterval otherLimit) :=
  ⟨createSession_single original interval limit,
    createSession_single original otherInterval otherLimit, rfl, rfl, rfl, rfl, rfl, rfl⟩

namespace Session
variable {session next : Session}

/-- The transactions of the active changes: their maximal runs of equal bits. -/
def transactions (session : Session) : List (List Change) :=
  Runs.groups Change.transactionBit session.top.changes

/-- The content at the boundary after the first `count` transactions. -/
def boundary (session : Session) (count : Nat) : List Byte :=
  replay (session.transactions.take count).flatten session.top.fileBytes

def undoTimes : Nat → Session → Except Fault Session
  | 0, session => .ok session
  | count + 1, session => do
    let session ← undoTimes count session
    let (session, _) ← session.undoLastChange
    .ok session

def redoTimes : Nat → Session → Except Fault Session
  | 0, session => .ok session
  | count + 1, session => do
    let session ← redoTimes count session
    let (session, _) ← session.redoLastUndo
    .ok session

lemma Single.content_eq_boundary (single : session.Single) :
    session.content = session.boundary session.transactions.length := by
  have content : session.content = _ := single.sound.content_eq
  rw [content, boundary, List.take_length, transactions, Runs.flatten_groups]

lemma changes_ne_nil {other : Session} {count : Nat}
    (left : session.transactions = other.transactions.take count)
    (some : 0 < min count other.transactions.length) : session.top.changes ≠ [] := by
  intro empty
  rw [← List.length_take, ← left, transactions, empty] at some
  exact absurd some (lt_irrefl 0)

/-- The `i`-th undo leaves all but the last `i` transactions. -/
lemma Single.undoTimes (single : session.Single) {count : Nat}
    (le : count ≤ session.transactions.length) :
    ∃ next, session.undoTimes count = .ok next ∧ next.Single ∧
      next.top.fileBytes = session.top.fileBytes ∧
      next.transactions = session.transactions.take (session.transactions.length - count) := by
  induction count with
  | zero => exact ⟨session, rfl, single, rfl, by rw [Nat.sub_zero, List.take_length]⟩
  | succ count ih =>
    obtain ⟨middle, undone, middleSingle, file, left⟩ := ih (by omega)
    obtain ⟨next, done, nextSingle, frame, changes, _⟩ := middleSingle.undo
    have nonempty := changes_ne_nil left (by omega)
    have last : Runs.groups Change.transactionBit middle.top.changes = _ :=
      Runs.groups_eq_append middle.top.changes nonempty
    have nextGroups : next.transactions = middle.transactions.dropLast := by
      rw [transactions, transactions, changes, last, List.dropLast_concat]
      rfl
    refine ⟨next, ?_, nextSingle, ?_, ?_⟩
    · simp only [Session.undoTimes, undone, done, bind, Except.bind]
    · rw [← file, Model.fileBytes_eq, Model.fileBytes_eq, frame.file]
    · rw [nextGroups, left, List.dropLast_eq_take, List.take_take, List.length_take]
      congr 1
      omega

lemma Single.redo_undo (single : session.Single) (nonempty : session.top.changes ≠ [])
    {answer : Int} (undone : session.undoLastChange = .ok (next, answer)) :
    ∃ back result, next.redoLastUndo = .ok (back, result) ∧ back.Alike session := by
  obtain ⟨after, undo, afterSingle, undoFrame, changes, retained⟩ := single.undo
  rw [undone] at undo
  cases undo
  obtain ⟨back, redo, backSingle, redoFrame, backChanges, backRetained⟩ := afterSingle.redo
  obtain ⟨split, runNonempty, same, _⟩ :=
    Runs.trailingRun_spec Change.transactionBit session.top.changes
  -- the run that was undone is what redo finds first, by the boundary behind it
  have run : Runs.leadingRun Change.transactionBit next.top.changesUndone =
      (lastTransaction session.top.changes).map Change.negate := by
    rw [retained]
    refine Runs.leadingRun_append ?_ ?_ ?_
    · intro none
      exact runNonempty nonempty (List.map_eq_nil_iff.mp none)
    · intro first firstMem second secondMem
      obtain ⟨firstChange, firstChangeMem, rfl⟩ := List.mem_map.mp firstMem
      obtain ⟨secondChange, secondChangeMem, rfl⟩ := List.mem_map.mp secondMem
      exact same firstChange firstChangeMem secondChange secondChangeMem
    · intro change mem following head
      obtain ⟨original, originalMem, rfl⟩ := List.mem_map.mp mem
      have last : session.top.changes.getLast? =
          (lastTransaction session.top.changes).getLast? := by
        conv_lhs => rw [← split]
        exact List.getLast?_append_of_ne_nil _ (runNonempty nonempty)
      cases lastEq : (lastTransaction session.top.changes).getLast? with
      | none => exact absurd (List.getLast?_eq_none_iff.mp lastEq) (runNonempty nonempty)
      | some lastChange =>
        rw [lastEq] at last
        have bit := same original originalMem lastChange (List.mem_of_getLast? lastEq)
        have boundary := single.separated lastChange last following head
        exact fun equal => boundary (bit.symm.trans equal.symm)
  refine ⟨back, _, redo, ?_⟩
  obtain ⟨⟨_, undoEq⟩, undoFile, undoBase⟩ := undoFrame
  obtain ⟨⟨_, redoEq⟩, redoFile, redoBase⟩ := redoFrame
  refine ⟨backSingle, single, ?_, ?_, ?_, ?_, ?_, ?_⟩
  · rw [Model.fileBytes_eq, Model.fileBytes_eq, redoFile, undoFile]
  · rw [redoBase, undoBase]
  · rw [backChanges, run, changes, map_negate_map_negate, beforeLastTransaction_append]
  · rw [backRetained, run, retained, List.drop_left]
  · rw [redoEq, undoEq]
    rfl
  · rw [redoEq, undoEq]
    rfl

/-- After `undone` undos, `redone` redos lead where fewer undos lead. -/
lemma Single.redoTimes (single : session.Single) {undone redone : Nat}
    (le : undone ≤ session.transactions.length) (fewer : redone ≤ undone)
    {after : Session} (undo : session.undoTimes undone = .ok after) :
    ∃ back middle, after.redoTimes redone = .ok back ∧
      session.undoTimes (undone - redone) = .ok middle ∧ back.Alike middle := by
  induction redone with
  | zero =>
    obtain ⟨next, done, nextSingle, _⟩ := single.undoTimes le
    rw [undo] at done
    cases done
    exact ⟨after, after, rfl, undo, .refl nextSingle⟩
  | succ redone ih =>
    obtain ⟨back, middle, redo, fewerUndone, alike⟩ := ih (by omega)
    -- `middle` is the undo of where one undo less leads
    obtain ⟨previous, undonePrevious, previousSingle, _, left⟩ :=
      single.undoTimes (by omega : undone - (redone + 1) ≤ session.transactions.length)
    have count : undone - redone = undone - (redone + 1) + 1 := by omega
    rw [count, Session.undoTimes, undonePrevious] at fewerUndone
    obtain ⟨start, startEq, fewerUndone⟩ := Transition.bind_eq_ok.mp fewerUndone
    cases startEq
    obtain ⟨⟨last, answer⟩, lastUndo, lastEq⟩ := Transition.bind_eq_ok.mp fewerUndone
    cases lastEq
    obtain ⟨restored, result, redoMiddle, restoredAlike⟩ :=
      previousSingle.redo_undo (changes_ne_nil left (by omega)) lastUndo
    obtain ⟨backNext, restoredNext, answer', backRedo, middleRedo, related⟩ := alike.redo
    rw [redoMiddle] at middleRedo
    cases middleRedo
    refine ⟨backNext, previous, ?_, undonePrevious, related.trans restoredAlike⟩
    simp only [Session.redoTimes, redo, backRedo, bind, Except.bind]

end Session

namespace Session
variable {left right : Session}

lemma Alike.transactions_eq (alike : left.Alike right) :
    left.transactions.map (List.map Change.plain) =
      right.transactions.map (List.map Change.plain) := by
  have leftGroups := Runs.groups_map Change.transactionBit Change.plain left.top.changes
  have rightGroups := Runs.groups_map Change.transactionBit Change.plain right.top.changes
  rw [alike.changes] at leftGroups
  exact leftGroups.symm.trans rightGroups

lemma Alike.transactions_length_eq (alike : left.Alike right) :
    left.transactions.length = right.transactions.length := by
  have length := congrArg List.length alike.transactions_eq
  rwa [List.length_map, List.length_map] at length

lemma Alike.boundary_eq (alike : left.Alike right) (count : Nat) :
    left.boundary count = right.boundary count := by
  rw [boundary, boundary, ← replay_map_plain, ← replay_map_plain (right.transactions.take count).flatten,
    List.map_flatten, List.map_flatten, List.map_take, List.map_take, alike.transactions_eq,
    alike.fileBytes]

end Session

/-- After any run inside one model, the `i`-th undo shows the content at the boundary `i`
transactions back, redo walks back through the same boundaries to the same content, number of
changes and serials, and none of this depends on the settings of the session. -/
theorem undo_redo_trajectory (original : Option OriginalFile) (interval limit : Int)
    (calls : List Call) (inside : ∀ call ∈ calls, call.InsideModel) :
    ∃ session answers,
      (createSession original interval limit).runAnswers calls = .ok (session, answers) ∧
      session.top.fileBytes = originalBytes original ∧
      (∀ undone ≤ session.transactions.length, ∃ after, session.undoTimes undone = .ok after ∧
        after.content = session.boundary (session.transactions.length - undone) ∧
        ∀ redone ≤ undone, ∃ back, after.redoTimes redone = .ok back ∧
          back.content = session.boundary (session.transactions.length - undone + redone) ∧
          (redone = undone → back.content = session.content ∧ back.numChanges = session.numChanges ∧
            back.top.changes.map Change.serial = session.top.changes.map Change.serial)) ∧
      ∀ otherInterval otherLimit, ∃ other,
        (createSession original otherInterval otherLimit).runAnswers calls = .ok (other, answers) ∧
        other.content = session.content ∧ other.numChanges = session.numChanges ∧
        other.top.changes.map Change.serial = session.top.changes.map Change.serial ∧
        other.transactions.length = session.transactions.length ∧
        ∀ count, other.boundary count = session.boundary count := by
  obtain ⟨session, _, answers, run, _, alike, file⟩ := Session.AlikeOver.runAnswers calls inside
    ⟨createSession_alike original interval limit interval limit, rfl⟩
  have single := alike.leftSingle
  refine ⟨session, answers, run, ?_, ?_, ?_⟩
  · rw [Model.fileBytes_eq, file]
    cases original <;> rfl
  · intro undone le
    obtain ⟨after, undo, afterSingle, afterFile, left⟩ := single.undoTimes le
    have afterContent : ∀ {count : Nat} {other : Session}, other.Single →
        other.top.fileBytes = session.top.fileBytes →
        other.transactions = session.transactions.take count →
        other.content = session.boundary count := by
      intro count other otherSingle otherFile otherLeft
      rw [otherSingle.content_eq_boundary, Session.boundary, List.take_length, otherLeft, otherFile,
        Session.boundary]
    refine ⟨after, undo, afterContent afterSingle afterFile left, ?_⟩
    intro redone fewer
    obtain ⟨back, middle, redo, undoMiddle, related⟩ := single.redoTimes le fewer undo
    obtain ⟨next, undoNext, nextSingle, nextFile, nextLeft⟩ :=
      single.undoTimes (by omega : undone - redone ≤ session.transactions.length)
    rw [undoMiddle] at undoNext
    cases undoNext
    refine ⟨back, redo, ?_, ?_⟩
    · rw [related.content_eq, afterContent nextSingle nextFile nextLeft]
      congr 1
      omega
    · rintro rfl
      rw [Nat.sub_self] at undoMiddle
      cases undoMiddle
      exact ⟨related.content_eq, related.numChanges_eq, related.serials_eq⟩
  · intro otherInterval otherLimit
    obtain ⟨other, same, otherAnswers, otherRun, sameRun, otherAlike, _⟩ :=
      Session.AlikeOver.runAnswers calls inside
        ⟨createSession_alike original otherInterval otherLimit interval limit, rfl⟩
    rw [run] at sameRun
    cases sameRun
    exact ⟨other, otherRun, otherAlike.content_eq, otherAlike.numChanges_eq, otherAlike.serials_eq,
      otherAlike.transactions_length_eq, otherAlike.boundary_eq⟩

/-- Two edits in a transaction, an undo and a redo. -/
theorem undo_redo_trajectory_of_transaction :
    (∀ call ∈ [Call.beginTransaction, .insertBytes 0 (some fun _ => 97) 2, .delete 1 1,
      .endTransaction, .undoLastChange, .redoLastUndo], call.InsideModel) ∧ ∃ session answers,
      (createSession none 1 0).runAnswers [.beginTransaction, .insertBytes 0 (some fun _ => 97) 2,
        .delete 1 1, .endTransaction, .undoLastChange, .redoLastUndo] = .ok (session, answers) ∧
      session.top.fileBytes = [] := by
  have inside : ∀ call ∈ [Call.beginTransaction, .insertBytes 0 (some fun _ => 97) 2, .delete 1 1,
      .endTransaction, .undoLastChange, .redoLastUndo], call.InsideModel := by
    simp [Call.InsideModel]
  obtain ⟨session, answers, run, file, _⟩ := undo_redo_trajectory none 1 0 _ inside
  exact ⟨inside, session, answers, run, file⟩

end OmegaEdit
