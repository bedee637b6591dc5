import OmegaEdit.Moves

/-! What undo, redo, checkpoints, transforms and checkouts can do to a session, one
statement for each of them. The sign of a serial tells undone changes from
active ones; it rules out the branches that refuse a change. -/
namespace OmegaEdit
open Transition (bind_eq_ok)
variable {P : Model → Prop} {change : Change} {transform : ByteTransform}
  {offset length : Int} {file : CheckpointFile}
  {transformId optionsJson : List Byte} {bit : Bool}

namespace Session
variable {session next : Session} {result : Int}

lemma freed_stack : session.freed.stack = session.stack.freed := by
  rw [freed, ModelStack.freed]
  split
  · rename_i empty
    rw [if_pos (by exact empty)]
  · rename_i nonempty
    rw [if_neg (by exact nonempty)]
    rfl

lemma recorded_stack (change : Change) (segments : List ModelSegment) (viewports : List Viewport) :
    (session.recorded change segments viewports).stack =
      session.stack.recorded change segments (session.newSnapshots segments) := by
  have top : (session.recorded change segments viewports).stack.top = _ :=
    session.recorded_top change segments viewports
  have below := session.recorded_below change segments viewports
  rw [freed_stack] at below
  exact congrArg₂ (fun below top => (⟨below, top, []⟩ : ModelStack)) below top

/-- The outcomes of undo. The models without changes of their own have been set aside. -/
inductive Undone (session : Session) : Session → Int → Prop where
  | nothing {result : Int} (answer : result = 0 ∨ result = -1) : Undone session session result
  | refreshed {top : Model} {below : List Model}
      (models : List.Forall₂ Model.Refreshed (session.top :: session.stack.below) (top :: below)) :
      Undone session (session.withStack ⟨below, top, session.stack.future⟩) (-1)
  | transform {previous top : Model} {below future : List Model} {change : Change}
      (suspended : session.stack.suspendPlainCheckpointModelsForUndo.1 =
        ⟨previous :: below, top, future⟩)
      (last : top.changes.getLast? = some change) (kind : change.kind = .transform)
      (data : change.transformData.isSome) :
      Undone session
        { session.withStack ⟨below,
            previous.withUndone (change.holding top.changesUndone :: previous.changesUndone),
            future⟩ with viewports := markAllViewportsChanged session.viewports }
        (-change.serial)
  | transaction {stack : ModelStack} {change : Change} {segments : List ModelSegment}
      {viewports : List Viewport}
      (suspended : session.stack.suspendPlainCheckpointModelsForUndo.1 = stack)
      (last : stack.top.changes.getLast? = some change) (kind : change.kind ≠ .transform)
      (undone : undoChangesInModel (lastTransaction stack.top.changes).reverse
        stack.top.modelSegments = .ok (some segments))
      (adjusted : updateViewportsAll ((lastTransaction stack.top.changes).map Change.negate).reverse
        session.viewports = .ok viewports) :
      Undone session
        { session.withStack { stack with top := stack.top.undoneLast segments } with viewports }
        (undoAnswer stack.top.changes)

lemma suspended_all (all : session.stack.All P) :
    session.stack.suspendPlainCheckpointModelsForUndo.1.All P := by
  intro model mem
  refine all model ?_
  rw [ModelStack.suspendPlainCheckpointModelsForUndo, ModelStack.order_suspendModels] at mem
  exact mem

lemma restoreSuspended_eq :
    (session.withStack session.stack.suspendPlainCheckpointModelsForUndo.1).restoreSuspended
      session.stack.suspendPlainCheckpointModelsForUndo.2 = session := by
  rw [restoreSuspended]
  show session.withStack (ModelStack.restoreSuspendedCheckpointModels _
    session.stack.suspendPlainCheckpointModelsForUndo.1) = session
  rw [ModelStack.restoreSuspended_suspend]
  rfl

lemma undoTransaction_undone {stack : ModelStack}
    (suspended : session.stack.suspendPlainCheckpointModelsForUndo.1 = stack)
    (signed : stack.top.Signed) (last : stack.top.changes.getLast? = some change)
    (kind : change.kind ≠ .transform) (done : (session.withStack stack).undoTransaction
      session.stack.suspendPlainCheckpointModelsForUndo.2 = .ok (next, result)) :
    Undone session next result := by
  have top : (session.withStack stack).top = stack.top := rfl
  have positive : (lastTransaction stack.top.changes).any
      (fun change => decide (change.serial ≤ 0)) = false := by
    rw [List.any_eq_false]
    intro other mem
    have active := (signed.active other (lastTransaction_subset _ mem)).positive
    simpa using active
  rw [undoTransaction, top] at done
  dsimp only at done
  rw [positive, if_neg (by simp)] at done
  obtain ⟨outcome, undone, done⟩ := bind_eq_ok.mp done
  cases outcome with
  | none =>
    obtain ⟨⟨rebuilt, answer⟩, refreshed, done⟩ := bind_eq_ok.mp done
    cases done
    have exposed : Model.Refreshed session.stack.suspendPlainCheckpointModelsForUndo.1.top rebuilt := by
      rw [suspended]
      exact .inr ⟨answer, refreshed⟩
    obtain ⟨newTop, newBelow, restored, models⟩ := ModelStack.restoreSuspended_suspendModels
      (fun _ => .inl rfl) session.stack.below session.stack.top session.stack.future exposed
    have stackEq : ModelStack.restoreSuspendedCheckpointModels
        session.stack.suspendPlainCheckpointModelsForUndo.2 { stack with top := rebuilt } =
        ⟨newBelow, newTop, session.stack.future⟩ := by
      rw [← suspended]
      exact restored
    have same : ((session.withStack stack).withTop rebuilt).restoreSuspended
        session.stack.suspendPlainCheckpointModelsForUndo.2 =
        session.withStack ⟨newBelow, newTop, session.stack.future⟩ :=
      congrArg session.withStack stackEq
    rw [same]
    exact .refreshed models
  | some segments =>
    obtain ⟨viewports, adjusted, done⟩ := bind_eq_ok.mp done
    cases done
    exact .transaction suspended last kind undone adjusted

lemma undoLastChange_transform {previous top : Model} {below future : List Model}
    (running : session.changesPaused = false)
    (exposed : session.stack.suspendPlainCheckpointModelsForUndo.1 = ⟨previous :: below, top, future⟩)
    (last : top.changes.getLast? = some change) (kind : change.kind = .transform)
    (data : change.transformData.isSome) (positive : 0 < change.serial) :
    session.undoLastChange = .ok ({ session.withStack ⟨below, previous.withUndone
        (change.holding top.changesUndone :: previous.changesUndone), future⟩ with
      viewports := markAllViewportsChanged session.viewports }, -change.serial) := by
  have lastEq : (session.withStack ⟨previous :: below, top, future⟩).lastChange = some change := last
  have moved : (session.withStack ⟨previous :: below, top, future⟩).undoTransformCheckpoint =
      ({ session.withStack ⟨below, previous.withUndone
        (change.holding top.changesUndone :: previous.changesUndone), future⟩ with
        viewports := markAllViewportsChanged session.viewports }, -change.serial) := by
    have present : change.transformData.isNone = false := by
      rwa [← Option.not_isSome, Bool.not_eq_false']
    simp only [undoTransformCheckpoint, withStack, lastChange, Session.top, last, kind, ne_eq,
      not_true_eq_false, if_false, present, Bool.false_eq_true, if_neg (Int.not_le.mpr positive)]
    rfl
  have fewer : (below.length : Int) ≠ ((previous :: below).length : Int) := by
    rw [List.length_cons]
    omega
  rw [undoLastChange, running, if_neg (by simp)]
  simp only [exposed, lastEq, kind, if_true, moved]
  exact if_neg fewer

lemma undoLastChange_undone (signed : session.stack.All Model.Signed)
    (done : session.undoLastChange = .ok (next, result)) : Undone session next result := by
  have undid := done
  rw [undoLastChange] at done
  split at done
  · cases done
    exact .nothing (.inl rfl)
  rename_i running
  dsimp only at done
  have exposedSigned := suspended_all signed
  have restored := session.restoreSuspended_eq
  cases suspended : session.stack.suspendPlainCheckpointModelsForUndo.1 with
  | mk below top future =>
    rw [suspended] at done exposedSigned restored
    have lastEq : (session.withStack ⟨below, top, future⟩).lastChange = top.changes.getLast? := rfl
    rw [lastEq] at done
    cases last : top.changes.getLast? with
    | none =>
      rw [last] at done
      dsimp only at done
      rw [restored] at done
      cases done
      exact .nothing (.inl rfl)
    | some change =>
      rw [last] at done
      dsimp only at done
      split at done
      · rename_i kind
        have positive := (exposedSigned.top.active change (List.mem_of_getLast? last)).positive
        have unmoved : ∀ answer : Int, (answer = 0 ∨ answer = -1) →
            (session.withStack ⟨below, top, future⟩).undoTransformCheckpoint =
              (session.withStack ⟨below, top, future⟩, answer) → Undone session next result := by
          intro answer allowed same
          rw [same] at done
          dsimp only at done
          rw [if_pos rfl, restored] at done
          cases done
          exact .nothing allowed
        cases below with
        | nil => exact unmoved 0 (.inl rfl) rfl
        | cons previous below =>
          cases data : change.transformData with
          | none =>
            refine unmoved (-1) (.inr rfl) ?_
            simp [undoTransformCheckpoint, withStack, lastChange, Session.top, last, kind, data]
          | some transformData =>
            cases undid.symm.trans (undoLastChange_transform (Bool.eq_false_iff.mpr running) suspended
              last kind (by rw [data]; rfl) positive)
            exact .transform suspended last kind (by simp [data])
      · rename_i kind
        exact undoTransaction_undone suspended exposedSigned.top last kind done

lemma redoTransformCheckpoint_cases (session : Session) :
    (session.redoTransformCheckpoint.1 = session ∧
        (session.redoTransformCheckpoint.2 = 0 ∨ session.redoTransformCheckpoint.2 = -1)) ∨
      ∃ change rest transformData, session.top.changesUndone = change :: rest ∧
        change.kind = .transform ∧ change.transformData = some transformData ∧
        0 ≤ transformData.computedFileSizeAfter ∧ -change.serial = session.numChanges + 1 ∧
        session.redoTransformCheckpoint =
          ({ session.withStack ⟨session.top.withUndone rest :: session.stack.below,
              checkpointModel transformData.checkpointFile session.numChanges
                transformData.computedFileSizeAfter [change.released] change.preservedChangesUndone,
              session.stack.future⟩ with viewports := markAllViewportsChanged session.viewports },
            -change.serial) := by
  cases undone : session.top.changesUndone with
  | nil =>
    left
    simp [redoTransformCheckpoint, undone]
  | cons change rest =>
    cases data : change.transformData with
    | none =>
      left
      simp [redoTransformCheckpoint, undone, data]
    | some transformData =>
      by_cases kind : change.kind = .transform
      · by_cases sized : transformData.computedFileSizeAfter < 0
        · left
          simp [redoTransformCheckpoint, undone, data, kind, sized]
        by_cases sign : change.serial ≥ 0
        · left
          simp [redoTransformCheckpoint, undone, data, kind, sized, sign]
        by_cases continues : -change.serial = session.numChanges + 1
        · right
          refine ⟨change, rest, transformData, rfl, kind, data, by omega, continues, ?_⟩
          simp only [redoTransformCheckpoint, undone, data, kind, sized, sign, continues, if_false,
            ne_eq, not_true_eq_false]
          rw [← continues]
          rfl
        · left
          simp [redoTransformCheckpoint, undone, data, kind, sized, sign, continues]
      · left
        rw [redoTransformCheckpoint, undone]
        dsimp only
        split
        · rename_i transform _
          exact absurd transform kind
        · exact ⟨rfl, .inl rfl⟩

lemma resumed_all (all : session.stack.All P) :
    session.resumePlainCheckpointModels.stack.All P := by
  intro model mem
  refine all model ?_
  have same := ModelStack.order_resumeModels session.stack.below session.stack.top
    session.stack.future
  exact same ▸ mem

lemma newTransform_of (start : Int) {replacement before after : Int}
    (built : transformChange session.nextChangeSerial offset length transformId optionsJson replacement
      before after file bit = some change) :
    NewTransform session.top file after (change.startingAt start) := by
  rw [transformChange] at built
  split at built
  · cases built
  rename_i accepted
  have positive : ¬ session.nextChangeSerial ≤ 0 := fun refused => accepted (.inl refused)
  obtain ⟨next, bounded⟩ := nextChangeSerial_of_pos positive
  obtain ⟨data, _, made⟩ := Option.bind_eq_some_iff.mp built
  cases made
  exact
    { kind := rfl
      serial_eq := next
      serial_pos := by
        show 0 < session.nextChangeSerial
        omega
      serial_le := bounded
      preserved := rfl
      data := ⟨_, rfl, rfl, rfl⟩ }

lemma promoteTransform_cases (session : Session) (file : CheckpointFile) (size : Int)
    (change : Change) :
    session.promoteTransform file size change = (session, -1) ∨
      ∃ start, session.promoteTransform file size change =
        ({ session.withStack ⟨session.stack.freeChangesUndone.top ::
              session.stack.freeChangesUndone.below,
            checkpointModel file session.numChanges size [change.startingAt start] [], []⟩ with
            viewports := markAllViewportsChanged session.viewports }, change.serial) := by
  by_cases sized : size < 0
  · exact .inl (by simp [promoteTransform, sized])
  by_cases continues : change.serial = session.numChanges + 1
  · right
    obtain ⟨start, assigned⟩ := session.assignTransactionStartSerial_eq change
    refine ⟨start, ?_⟩
    simp only [promoteTransform, sized, continues, if_false, ne_eq, not_true_eq_false, assigned]
    rw [← continues]
    rfl
  · exact .inl (by simp [promoteTransform, sized, continues])

/-- The session after the file of a transform has been promoted. -/
def transformed (session : Session) (file : CheckpointFile) (size : Int) (change : Change)
    (nextFile : Nat) : Session :=
  { session.marked with
    stack := ⟨session.stack.freeChangesUndone.top :: session.stack.freeChangesUndone.below,
      checkpointModel file session.top.numChanges size [change] [], []⟩
    viewports := markAllViewportsChanged session.viewports
    nextFile }

lemma marked_createFile (bytes : List Byte) :
    (session.createFile bytes).1.determineChangeTransactionBit =
      ({ session.marked with nextFile := session.nextFile + 1 }, session.newTransactionBit) := by
  have state : (session.createFile bytes).1.transactionState = session.transactionState := rfl
  rw [marked, newTransactionBit, determineChangeTransactionBit, determineChangeTransactionBit, state]
  split <;> rfl

lemma transformChange_eq_some {serial replacement before after : Int}
    (built : transformChange serial offset length transformId optionsJson replacement before after
      file bit = some change) :
    0 < serial ∧ change.serial = serial := by
  rw [transformChange] at built
  split at built
  · cases built
  rename_i accepted
  obtain ⟨data, _, made⟩ := Option.bind_eq_some_iff.mp built
  cases made
  exact ⟨by omega, rfl⟩

/-- What promoting a new transform can do. Its file may have been written in vain. -/
lemma promoteNewTransform_cases {bytes : List Byte} {replacement before after : Int}
    (done : session.promoteNewTransform bytes offset length transformId optionsJson replacement before
      after = (next, result)) :
    (result = -1 ∧ ∃ nextFile, next = { session.marked with nextFile }) ∨
    ∃ (file : CheckpointFile) (change : Change) (nextFile : Nat), file.bytes = bytes ∧ 0 < result ∧
      NewTransform session.top file after change ∧ change.serial = result ∧
      next = session.transformed file after change nextFile := by
  rw [promoteNewTransform] at done
  dsimp only at done
  rw [marked_createFile] at done
  cases built : transformChange (session.createFile bytes).1.nextChangeSerial offset length transformId
      optionsJson replacement before after (session.createFile bytes).2 session.newTransactionBit with
  | none =>
    rw [built] at done
    cases done
    exact .inl ⟨rfl, session.nextFile + 1, rfl⟩
  | some change =>
    rw [built] at done
    dsimp only at done
    obtain ⟨positive, serial⟩ := transformChange_eq_some built
    rcases promoteTransform_cases { session.marked with nextFile := session.nextFile + 1 }
      (session.createFile bytes).2 after change with same | ⟨start, same⟩
    · rw [same] at done
      cases done
      exact .inl ⟨rfl, session.nextFile + 1, rfl⟩
    · rw [same] at done
      cases done
      have stack : session.marked.stack = session.stack := marked_stack
      have viewports : session.marked.viewports = session.viewports := marked_viewports
      have count : Session.numChanges { session.marked with nextFile := session.nextFile + 1 } =
          session.top.numChanges := congrArg (fun stack => stack.top.numChanges) stack
      refine .inr ⟨(session.createFile bytes).2, _, session.nextFile + 1, rfl, by omega,
        newTransform_of start built, rfl, ?_⟩
      rw [count]
      simp only [withStack, stack, viewports]
      rfl

/-- What applying a transform can do. A file may have been reserved in vain. -/
lemma applyTransformCheckpointed_cases (done : session.applyTransformCheckpointed transform offset
      length transformId optionsJson = .ok (next, result)) :
    (result = -1 ∧ ∃ nextFile,
      next = { session with nextFile } ∨ next = { session.marked with nextFile }) ∨
    ∃ (file : CheckpointFile) (change : Change) (nextFile : Nat), 0 < result ∧ 0 ≤ offset ∧
      offset ≤ session.computedFileSize ∧
      saveSegmentTransformed session.top transform offset (if length ≤ 0 then
        session.computedFileSize - offset else min length (session.computedFileSize - offset)) =
        .ok (some file.bytes) ∧
      NewTransform session.top file session.computedFileSize change ∧ change.serial = result ∧
      next = session.transformed file session.computedFileSize change nextFile := by
  rw [applyTransformCheckpointed] at done
  split at done
  · cases done
    exact .inl ⟨rfl, session.nextFile, .inl rfl⟩
  split at done
  · cases done
    exact .inl ⟨rfl, session.nextFile, .inl rfl⟩
  rename_i reached _
  dsimp only at done
  split at done
  · cases done
    exact .inl ⟨rfl, session.nextFile, .inl rfl⟩
  rename_i inside
  obtain ⟨saved, save, done⟩ := bind_eq_ok.mp done
  generalize (if length ≤ 0 then session.computedFileSize - offset
    else min length (session.computedFileSize - offset)) = effectiveLength at save done ⊢
  cases saved with
  | none =>
    cases done
    exact .inl ⟨rfl, session.nextFile, .inl rfl⟩
  | some bytes =>
    cases promoted : session.promoteNewTransform bytes offset effectiveLength transformId optionsJson
        effectiveLength session.computedFileSize session.computedFileSize with
    | mk after serial =>
      dsimp only at done
      rw [promoted] at done
      cases done
      rcases promoteNewTransform_cases promoted with ⟨rfl, nextFile, rfl⟩ |
        ⟨file, change, nextFile, rfl, positive, new, same, rfl⟩
      · exact .inl ⟨rfl, nextFile, .inr rfl⟩
      · rw [if_neg (by omega)]
        exact .inr ⟨file, change, nextFile, positive, by omega, by omega, save, new, same, rfl⟩

end Session

/-- The calls that only change flags, settings and viewports. -/
def Call.Quiet : Call → Prop
  | .beginTransaction | .endTransaction | .pauseChanges | .resumeChanges => True
  | .setUndoSnapshotInterval _ | .setChangeInlinePayloadLimit _ => True
  | .createViewport _ _ _ | .modifyViewport _ _ _ _ | .getViewportData _ | .destroyViewport _ => True
  | _ => False

end OmegaEdit
