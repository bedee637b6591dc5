import OmegaEdit.Composite
import OmegaEdit.UndoRedo

/-! Sessions that stay inside one model: edits, transactions, undo and redo. Undo
and redo move the boundary between the active and the undone changes by one
transaction, and the boundary always lies between two transactions. -/
namespace OmegaEdit

/-- A session with one model, no transform in it, and a transaction boundary between its active
and its undone changes. -/
structure Session.Single (session : Session) : Prop where
  below : session.stack.below = []
  future : session.stack.future = []
  running : session.changesPaused = false
  sound : session.top.Sound
  signed : session.top.Signed
  primitive : ∀ change ∈ session.top.changes, change.kind ≠ .transform
  primitiveUndone : ∀ change ∈ session.top.changesUndone, change.kind ≠ .transform
  separated : ∀ last ∈ session.top.changes.getLast?, ∀ next ∈ session.top.changesUndone.head?,
    last.transactionBit ≠ next.transactionBit

/-- The calls that stay inside one model. -/
def Call.InsideModel : Call → Prop
  | .insertBytes _ _ _ | .delete _ _ | .overwriteBytes _ _ _ | .replaceBytes _ _ _ _ => True
  | .beginTransaction | .endTransaction | .undoLastChange | .redoLastUndo => True
  | .setUndoSnapshotInterval _ | .setChangeInlinePayloadLimit _ => True
  | _ => False

namespace Session
variable {session next : Session} {result : Int}

lemma Single.of_stack_eq (single : session.Single) (stack : next.stack = session.stack)
    (running : next.changesPaused = session.changesPaused) : next.Single := by
  have top : next.top = session.top := congrArg ModelStack.top stack
  refine ⟨by rw [stack]; exact single.below, by rw [stack]; exact single.future,
    running.trans single.running, ?_, ?_, ?_, ?_, ?_⟩
  all_goals rw [top]
  · exact single.sound
  · exact single.signed
  · exact single.primitive
  · exact single.primitiveUndone
  · exact single.separated

lemma Edited.single {describes : Change → Prop} (edited : Edited session describes next result)
    (single : session.Single) : next.Single := by
  have denotes := single.sound.denotes
  cases edited with
  | refused => exact single
  | unbuilt => exact single.of_stack_eq marked_stack marked_paused
  | dropped new failed =>
    obtain ⟨segments, applied, _⟩ := Denotes.updateModel denotes (new.fits _ denotes)
    rw [applied] at failed
    cases failed
  | @recorded change segments viewports running new bit described applied adjusted =>
    have markedSound : session.marked.top.Sound := by
      rw [marked_top]
      exact single.sound
    have markedSigned : session.marked.top.Signed := by
      rw [marked_top]
      exact single.signed
    rw [← marked_top] at new applied
    refine ⟨?_, rfl, ?_, recorded_sound viewports markedSound new applied,
      recorded_signed segments viewports markedSigned new, ?_, ?_, ?_⟩
    · rw [recorded_below, freed_below, marked_stack, single.below]
      split <;> rfl
    · exact (recorded_paused change segments viewports).trans
        (marked_paused.trans single.running)
    · rw [recorded_top, marked_top]
      intro other mem
      rcases List.mem_append.mp mem with old | fresh
      · exact single.primitive other old
      · rw [List.mem_singleton.mp fresh]
        exact new.primitive
    · rw [recorded_top]
      intro other mem
      cases mem
    · rw [recorded_top]
      intro last _ following mem
      cases mem

/-- The same session with other change lists, segments, snapshots and viewports in its top model. -/
structure SameOutside (session next : Session) : Prop where
  frame : session.SameButTop next
  file : next.top.file = session.top.file
  base : next.top.changeSerialBase = session.top.changeSerialBase

lemma SameOutside.refl (session : Session) : session.SameOutside session :=
  ⟨⟨session.viewports, rfl⟩, rfl, rfl⟩

lemma withStack_of_single (below : session.stack.below = []) (future : session.stack.future = []) :
    session.withStack ⟨[], session.stack.top, []⟩ = session := by
  obtain ⟨⟨belowModels, top, futureModels⟩, _, _, _, _, _, _, _⟩ := session
  cases below
  cases future
  rfl

lemma Single.undo (single : session.Single) :
    ∃ next, session.undoLastChange = .ok (next, undoAnswer session.top.changes) ∧ next.Single ∧
      session.SameOutside next ∧ next.top.changes = beforeLastTransaction session.top.changes ∧
      next.top.changesUndone =
        (lastTransaction session.top.changes).map Change.negate ++ session.top.changesUndone := by
  have suspended : session.stack.suspendPlainCheckpointModelsForUndo =
      (⟨[], session.stack.top, []⟩, 0) := by
    rw [ModelStack.suspendPlainCheckpointModelsForUndo, single.below, single.future]
    rfl
  rw [undoLastChange, single.running, suspended]
  simp only [Bool.false_eq_true, if_false, withStack_of_single single.below single.future]
  cases last : session.lastChange with
  | none =>
    have empty : session.top.changes = [] := List.getLast?_eq_none_iff.mp last
    refine ⟨session, ?_, single, .refl session, ?_, ?_⟩
    · rw [empty]
      rfl
    · rw [empty]
      rfl
    · rw [empty]
      rfl
  | some change =>
    have kind : change.kind ≠ .transform :=
      single.primitive change (List.mem_of_getLast? last)
    have primitive : ∀ other ∈ lastTransaction session.top.changes, other.kind ≠ .transform :=
      fun other mem => single.primitive other (lastTransaction_subset _ mem)
    obtain ⟨segments, viewports, undone, sound⟩ :=
      undoTransaction_eq 0 single.sound single.signed primitive
    simp only [if_neg kind, undone]
    refine ⟨_, rfl, ?_, ⟨⟨viewports, rfl⟩, rfl, rfl⟩, rfl, rfl⟩
    obtain ⟨split, _, _, boundary⟩ :=
      Runs.trailingRun_spec Change.transactionBit session.top.changes
    refine ⟨single.below, single.future, single.running, sound, single.signed.undoneLast segments,
      ?_, ?_, ?_⟩
    · intro other mem
      refine single.primitive other ?_
      rw [← split]
      exact List.mem_append_left _ mem
    · intro other mem
      rcases List.mem_append.mp mem with fresh | old
      · obtain ⟨original, originalMem, rfl⟩ := List.mem_map.mp fresh
        exact primitive original originalMem
      · exact single.primitiveUndone other old
    · intro before beforeMem following head
      have run : lastTransaction session.top.changes ≠ [] := by
        refine (Runs.trailingRun_spec Change.transactionBit session.top.changes).2.1 ?_
        rintro empty
        rw [lastChange, empty] at last
        cases last
      obtain ⟨first, rest, runEq⟩ := List.exists_cons_of_ne_nil run
      have firstMem : first ∈ lastTransaction session.top.changes := by
        rw [runEq]
        exact List.mem_cons_self
      have headEq : following = first.negate := by
        change following ∈ ((lastTransaction session.top.changes).map Change.negate ++ _).head? at head
        rw [runEq] at head
        cases head
        rfl
      rw [headEq]
      exact boundary before beforeMem first firstMem

lemma forall_of_map_plain {P : Change → Prop} {changes others : List Change}
    (invariant : ∀ change, P change.plain ↔ P change)
    (same : changes.map Change.plain = others.map Change.plain) (holds : ∀ change ∈ others, P change) :
    ∀ change ∈ changes, P change := by
  intro change mem
  have plainMem : change.plain ∈ others.map Change.plain := by
    rw [← same]
    exact List.mem_map_of_mem mem
  obtain ⟨other, otherMem, otherEq⟩ := List.mem_map.mp plainMem
  rw [← invariant, ← otherEq, invariant]
  exact holds other otherMem

lemma Single.redo (single : session.Single) :
    ∃ next, session.redoLastUndo = .ok (next, redoAnswer session.top.changesUndone) ∧
      next.Single ∧ session.SameOutside next ∧
      next.top.changes.map Change.plain = (session.top.changes ++
        (Runs.leadingRun Change.transactionBit session.top.changesUndone).map
          Change.negate).map Change.plain ∧ next.top.changesUndone = session.top.changesUndone.drop
        (Runs.leadingRun Change.transactionBit session.top.changesUndone).length := by
  have resumed : ∀ {session : Session}, session.stack.below = [] → session.stack.future = [] →
      session.resumePlainCheckpointModels = session := by
    intro session below future
    rw [resumePlainCheckpointModels, ModelStack.resumePlainCheckpointModelsForRedo, below, future]
    exact withStack_of_single below future
  rw [redoLastUndo, single.running]
  simp only [Bool.false_eq_true, if_false, resumed single.below single.future]
  cases undone : session.top.changesUndone with
  | nil => exact ⟨session, rfl, single, .refl session, by simp [Runs.leadingRun], undone⟩
  | cons first rest =>
    have kind : first.kind ≠ .transform :=
      single.primitiveUndone first (by rw [undone]; exact List.mem_cons_self)
    obtain ⟨split, same, stops⟩ :=
      Runs.leadingRun_spec Change.transactionBit session.top.changesUndone
    have runMem : ∀ change ∈ Runs.leadingRun Change.transactionBit session.top.changesUndone,
        change ∈ session.top.changesUndone := by
      intro change mem
      rw [← split]
      exact List.mem_append_left _ mem
    obtain ⟨next, result, redo, redone⟩ := redoTransaction_eq single.sound single.signed rfl
      (fun change mem => single.primitiveUndone change (runMem change mem)) (by rw [undone]; simp)
    rw [← undone]
    have run : Runs.leadingRun Change.transactionBit session.top.changesUndone ≠ [] := by
      rw [undone]
      exact List.cons_ne_nil _ _
    have answer : result = redoAnswer session.top.changesUndone := by
      cases last : (Runs.leadingRun Change.transactionBit session.top.changesUndone).getLast? with
      | none => exact absurd (List.getLast?_eq_none_iff.mp last) run
      | some change =>
        rw [redoAnswer, last]
        exact redone.answer change last
    have changes : next.top.changes.map Change.plain = (session.top.changes ++
        (Runs.leadingRun Change.transactionBit session.top.changesUndone).map
          Change.negate).map Change.plain := by
      rw [redone.changes, List.map_append, List.map_map]
      rfl
    obtain ⟨viewports, frame⟩ := redone.frame
    have below : next.stack.below = [] := by
      rw [frame]
      exact single.below
    have future : next.stack.future = [] := by
      rw [frame]
      exact single.future
    refine ⟨next, ?_, ⟨below, future, ?_, redone.sound, redone.signed, ?_, ?_, ?_⟩,
      ⟨redone.frame, redone.file, redone.base⟩, changes, redone.undone⟩
    · rw [undone] at redo answer ⊢
      simp only [if_neg kind, redo, bind, Except.bind, answer, resumed below future, ite_self]
    · rw [frame]
      exact single.running
    · refine forall_of_map_plain (fun change => Iff.rfl) changes ?_
      intro change mem
      rcases List.mem_append.mp mem with old | fresh
      · exact single.primitive change old
      · obtain ⟨original, originalMem, rfl⟩ := List.mem_map.mp fresh
        exact single.primitiveUndone original (runMem original originalMem)
    · intro change mem
      rw [redone.undone] at mem
      exact single.primitiveUndone change (List.mem_of_mem_drop mem)
    · intro last lastMem following followingMem
      rw [redone.undone] at followingMem
      have bits := congrArg List.getLast? (congrArg (List.map Change.transactionBit) changes)
      rw [List.map_map, List.map_map, List.map_append, List.getLast?_append_of_ne_nil _
        (by simpa using run), List.map_map, List.getLast?_map, List.getLast?_map, lastMem] at bits
      cases lastRun : (Runs.leadingRun Change.transactionBit session.top.changesUndone).getLast? with
      | none => exact absurd (List.getLast?_eq_none_iff.mp lastRun) run
      | some redoneLast =>
        rw [lastRun] at bits
        have bit : last.transactionBit = redoneLast.transactionBit := Option.some.inj bits
        have firstHead : first ∈ session.top.changesUndone.head? := by
          rw [undone]
          rfl
        rw [bit, same redoneLast (List.mem_of_getLast? lastRun) first firstHead]
        exact (stops following followingMem first firstHead).symm

end Session

end OmegaEdit
