import OmegaEdit.Outcomes

/-! What the calls leave. Each of them keeps what the moves of changes respect in all models. The
calls that manage checkpoints leave the viewports as they were, or mark all of them. -/
namespace OmegaEdit

lemma Kept.refreshed {P : Model → Prop} {A U : Change → Prop} (kept : Kept P A U)
    {models others : List Model} (refreshed : List.Forall₂ Model.Refreshed models others)
    (holds : ∀ model ∈ models, P model) : ∀ model ∈ others, P model := by
  induction refreshed with
  | nil => simp
  | cons first _ ih =>
    obtain ⟨head, tail⟩ := List.forall_mem_cons.mp holds
    obtain ⟨_, _, changes, undone⟩ := first.frame
    exact List.forall_mem_cons.mpr ⟨kept.frame head changes undone, ih tail⟩

namespace Session
variable {session next : Session} {result : Int} {P : Model → Prop} {A U : Change → Prop}

lemma Edited.all {describes : Change → Prop} (edited : Edited session describes next result)
    (kept : Kept P A U) (all : session.stack.All P) : next.stack.All P := by
  cases edited with
  | refused => exact all
  | unbuilt => rwa [marked_stack]
  | dropped new failed =>
    rw [freed_stack, marked_stack]
    exact kept.freed all
  | recorded running new bit described applied adjusted =>
    rw [recorded_stack, marked_stack]
    exact ModelStack.all_iff.mpr ⟨kept.recorded all.top (kept.new new) (by simp),
      (kept.freed all).below, by simp [ModelStack.recorded]⟩

lemma Undone.all (undone : session.Undone next result) (kept : Kept P A U)
    (all : session.stack.All P) : next.stack.All P := by
  have exposed := suspended_all all
  cases undone with
  | nothing answer => exact all
  | refreshed models =>
    have active := kept.refreshed models (List.forall_mem_cons.mpr ⟨all.top, all.below⟩)
    obtain ⟨top, below⟩ := List.forall_mem_cons.mp active
    exact ModelStack.all_iff.mpr ⟨top, below, all.future⟩
  | transform suspended last kind data =>
    rw [suspended] at exposed
    obtain ⟨top, below, future⟩ := ModelStack.all_iff.mp exposed
    obtain ⟨previous, below⟩ := List.forall_mem_cons.mp below
    obtain ⟨active, undone⟩ := kept.iff.mp top
    have held := kept.holding (active _ (List.mem_of_getLast? last)) undone
    have added := List.forall_mem_cons.mpr ⟨held, (kept.iff.mp previous).2⟩
    exact ModelStack.all_iff.mpr ⟨kept.withUndone previous added, below, future⟩
  | transaction suspended last kind undone adjusted =>
    rw [suspended] at exposed
    exact exposed.withTop (kept.undoneLast exposed.top _)

/-- What the calls leave that manage checkpoints. -/
structure Leaves (session next : Session) : Prop where
  all : ∀ {P : Model → Prop} {A U : Change → Prop}, Kept P A U → session.stack.All P →
    next.stack.All P
  viewports : next.viewports = session.viewports ∨
    next.viewports = markAllViewportsChanged session.viewports

lemma Leaves.refl : session.Leaves session := ⟨fun _ all => all, .inl rfl⟩

lemma promotePlain_leaves (bytes : List Byte) (size : Int) :
    session.Leaves ((session.createFile bytes).1.promotePlain (session.createFile bytes).2 size).1 := by
  rw [promotePlain]
  split
  · exact ⟨fun _ all => all, .inl rfl⟩
  · refine ⟨fun kept all => ModelStack.all_iff.mpr ⟨kept.iff.mpr ⟨nofun, nofun⟩, ?_, nofun⟩, .inl rfl⟩
    exact List.forall_mem_cons.mpr ⟨all.top, all.below⟩

/-- Whatever a call returns, it leaves the session in this way. -/
def Answers {α : Type} (session : Session) (left : α → Session) (outcome : Except Fault α) : Prop :=
  ∀ value, outcome = .ok value → session.Leaves (left value)

namespace Answers
variable {α β : Type} {left : α → Session}

lemma ok {value : α} (leaves : session.Leaves (left value)) : session.Answers left (.ok value) := by
  rintro _ ⟨⟩
  exact leaves

lemma ite {condition : Prop} [Decidable condition] {first second : Except Fault α}
    (yes : session.Answers left first) (no : session.Answers left second) :
    session.Answers left (if condition then first else second) := by
  split
  · exact yes
  · exact no

lemma bind {first : Except Fault β} {rest : β → Except Fault α}
    (answers : ∀ value, first = .ok value → session.Answers left (rest value)) :
    session.Answers left (first >>= rest) := by
  intro answer done
  obtain ⟨value, here, done⟩ := Transition.bind_eq_ok.mp done
  exact answers value here answer done

end Answers

lemma createCheckpoint_answers : session.Answers Prod.fst session.createCheckpoint := by
  refine .bind fun saved _ => ?_
  cases saved with
  | none => exact .ok .refl
  | some bytes => exact .ok (promotePlain_leaves bytes _)

lemma marked_leaves (nextFile : Nat) : session.Leaves { session.marked with nextFile } := by
  refine ⟨fun _ all => ?_, .inl marked_viewports⟩
  show session.marked.stack.All _
  rwa [marked_stack]

lemma transformed_leaves {file : CheckpointFile} {size : Int} {change : Change}
    (new : NewTransform session.top file size change) (nextFile : Nat) :
    session.Leaves (session.transformed file size change nextFile) := by
  refine ⟨fun kept all => ModelStack.all_iff.mpr ⟨kept.iff.mpr ⟨?_, nofun⟩, ?_, nofun⟩, .inr rfl⟩
  · exact List.forall_mem_singleton.mpr (kept.newTransform new)
  · have free := kept.freeAll all
    exact List.forall_mem_cons.mpr ⟨free.top, free.below⟩

lemma applyTransform_answers {transform : ByteTransform} {offset length : Int} :
    session.Answers Prod.fst (session.applyTransform transform offset length) := by
  refine .bind ?_
  rintro ⟨next, serial⟩ applied
  refine .ok ?_
  rcases applyTransformCheckpointed_cases applied with
    ⟨_, nextFile, rfl | rfl⟩ | ⟨file, change, nextFile, _, _, _, _, new, _, rfl⟩
  · exact ⟨fun _ all => all, .inl rfl⟩
  · exact marked_leaves nextFile
  · exact transformed_leaves new nextFile

lemma promoteReplaced_leaves (file : List Byte) (size count : Int) :
    session.Leaves (promoteReplaced session file size count).session := by
  have leaves : session.Leaves _ := promotePlain_leaves file size
  have viewports : ((session.createFile file).1.promotePlain (session.createFile file).2
      size).1.viewports = session.viewports := by
    rw [promotePlain]
    split <;> rfl
  rw [promoteReplaced]
  dsimp only
  split
  · exact .refl
  · exact ⟨leaves.all, .inr (congrArg markAllViewportsChanged viewports)⟩

lemma promoteReplacedBytes_leaves {offset deleted inserted size fileSize : Int} {file : List Byte}
    {transformId optionsJson : List Byte} : session.Leaves
      (session.promoteReplacedBytes offset deleted inserted size fileSize file transformId optionsJson).1 := by
  rw [promoteReplacedBytes]
  split
  · exact promoteReplaced_leaves file fileSize 0
  · cases promoted : session.promoteNewTransform file offset deleted transformId optionsJson inserted size
        fileSize with
    | mk next serial =>
      rcases promoteNewTransform_cases promoted with ⟨_, nextFile, rfl⟩ |
        ⟨_, _, nextFile, _, _, new, _, rfl⟩
      · exact marked_leaves nextFile
      · exact transformed_leaves new nextFile

lemma replaceBytesCheckpointed_answers {offset deleteLength insertLength : Int} {bytes : BytesPointer}
    {transformId optionsJson : List Byte} : session.Answers Prod.fst
      (session.replaceBytesCheckpointed offset deleteLength bytes insertLength transformId optionsJson) := by
  refine .ite (.ok .refl) (.ite (.ok .refl) (.ite (.ok .refl) (.ite (.ok .refl) (.ite (.ok .refl) ?_))))
  split
  · exact .ok .refl
  · refine .bind fun written _ => ?_
    cases written with
    | none => exact .ok .refl
    | some file => exact .ite (.ok .refl) (.ok promoteReplacedBytes_leaves)

/-- The session after a replacement of matches, as it was if that does not end. -/
def leftBy (session : Session) (outcome : Option Replaced) : Session := outcome.elim session Replaced.session

lemma replaceAllBytesDirectional_answers (pattern : BytesPointer) (patternLength : Int)
    (replacement : BytesPointer) (replacementLength : Int) (caseFolding : CaseFolding) (isReverse : Bool)
    (offset length : Int) (calls : Nat) :
    session.Answers session.leftBy (replaceAllBytesDirectional session pattern patternLength replacement
      replacementLength caseFolding isReverse offset length calls) := by
  unfold replaceAllBytesDirectional replaceAllBytesReverseCheckpointed replaceAllBytes checkedReplace
    replaceCounted replaceBackward replaceStreamed replaceSearched replaceFromMatch
  -- every branch ends with the session itself or with the promoting of a file
  repeat' first
    | exact .ok .refl
    | exact .ok (promoteReplaced_leaves _ _ _)
    | refine .ite ?_ ?_
    | refine .bind fun _ _ => ?_
    | split
    | dsimp only

lemma checkoutCheckpoint_answers {checkpointCount : Int} :
    session.Answers Prod.fst (session.checkoutCheckpoint checkpointCount) := by
  have moved : ∀ {P : Model → Prop} {A U : Change → Prop}, Kept P A U → session.stack.All P →
      ModelStack.All P { session.stack.moveTo checkpointCount.toNat with
        below := (ModelStack.restoreBelow (session.stack.moveTo checkpointCount.toNat).below.reverse
          (session.stack.moveTo checkpointCount.toNat).top.changeSerialBase).1.reverse } := by
    intro P A U kept all
    have there : (session.stack.moveTo checkpointCount.toNat).All P := by
      rwa [ModelStack.All, ModelStack.order_moveTo]
    refine ModelStack.all_iff.mpr ⟨there.top, fun model mem => ?_, there.future⟩
    exact kept.restoreBelow (fun other inside => there.below other (List.mem_reverse.mp inside))
      model (List.mem_reverse.mp mem)
  refine .ite (.ok .refl) (.ite (.ok .refl) (.ite (.ok .refl) (.ite (.ok .refl) (.ite (.ok ?_) (.ite ?_ ?_)))))
  · exact ⟨moved, .inl rfl⟩
  · split
    · exact .ok ⟨moved, .inl rfl⟩
    · rename_i root rewound
      refine .ok ⟨fun kept all => (moved kept all).withTop ?_, .inr rfl⟩
      exact kept.frame (kept.moveChangesToUndo (moved kept all).top rewound) rfl rfl
  · dsimp only
    split
    · exact .ok ⟨moved, .inl rfl⟩
    · rename_i model rewound
      refine .bind fun value rebuilt => ?_
      have landed : ∀ {P : Model → Prop} {A U : Change → Prop}, Kept P A U → session.stack.All P →
          P value.1 :=
        fun kept all => kept.rebuilt (kept.moveChangesToUndo (moved kept all).top rewound) rebuilt
      refine .ite (.ok ?_) (.ok ?_)
      · exact ⟨fun kept all => (moved kept all).withTop (landed kept all), .inl rfl⟩
      · exact ⟨fun kept all => (moved kept all).withTop (landed kept all), .inr rfl⟩

lemma destroyLastCheckpoint_leaves : session.Leaves session.destroyLastCheckpoint.1 := by
  rw [destroyLastCheckpoint]
  split
  · exact .refl
  · rename_i previous below models
    refine ⟨fun _ all => ?_, .inr rfl⟩
    have active := all.below
    rw [models] at active
    obtain ⟨previous, below⟩ := List.forall_mem_cons.mp active
    exact ModelStack.all_iff.mpr ⟨previous, below, by simp⟩

lemma restoreLastCheckpoint_answers : session.Answers Prod.fst session.restoreLastCheckpoint := by
  rw [restoreLastCheckpoint]
  split
  · exact .ok .refl
  · refine .bind fun value rebuilt => ?_
    refine .ite (.ok ?_) (.ok ?_)
    · exact ⟨fun kept all => all.withTop (kept.rebuilt (kept.truncated all.top _) rebuilt), .inl rfl⟩
    · exact ⟨fun kept all => all.withTop (kept.rebuilt (kept.truncated all.top _) rebuilt), .inr rfl⟩

lemma discardAbove_all {below : List Model} {top : Model} {changeCount : Int} (holds : P top)
    (others : ∀ model ∈ below, P model) :
    P (ModelStack.discardAbove below top changeCount).2.1 ∧
      ∀ model ∈ (ModelStack.discardAbove below top changeCount).1, P model := by
  induction below generalizing top with
  | nil => exact ⟨holds, others⟩
  | cons previous below ih =>
    obtain ⟨first, rest⟩ := List.forall_mem_cons.mp others
    rw [ModelStack.discardAbove]
    split
    · exact ih first rest
    · exact ⟨holds, others⟩

lemma restoreToChangeCount_answers {changeCount : Int} :
    session.Answers Prod.fst (session.restoreToChangeCount changeCount) := by
  refine .ite (.ok .refl) (.bind fun value rebuilt => ?_)
  have left : ∀ {P : Model → Prop} {A U : Change → Prop}, Kept P A U → session.stack.All P →
      ModelStack.All P { session.stack with
        below := (ModelStack.discardAbove session.stack.below session.top changeCount).1
        top := value.1 } := by
    intro P A U kept all
    obtain ⟨top, below⟩ := @discardAbove_all P _ _ changeCount all.top all.below
    exact ModelStack.all_iff.mpr ⟨kept.rebuilt (kept.truncated top _) rebuilt, below, all.future⟩
  exact .ite (.ok ⟨left, .inl rfl⟩) (.ite (.ok ⟨left, .inr rfl⟩) (.ok ⟨left, .inl rfl⟩))

lemma clearChanges_leaves : session.Leaves session.clearChanges.1 :=
  ⟨fun kept _ => ModelStack.all_iff.mpr ⟨kept.iff.mpr ⟨nofun, nofun⟩, nofun, nofun⟩, .inr rfl⟩

end Session

end OmegaEdit
