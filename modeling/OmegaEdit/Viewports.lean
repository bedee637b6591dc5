import OmegaEdit.Steps
import OmegaEdit.Throughout

/-! What the calls do to the viewports. A change moves a floating viewport and
marks the viewports it touches; the calls that exchange whole models mark all of
them. An invariant of single viewports is given by these operations. -/
namespace OmegaEdit
open Transition (bind_eq_ok)

namespace Viewport

/-- A change that the viewport is marked for. No viewport is asked about a transform. -/
def touchedBy (viewport : Viewport) (change : Change) : Bool :=
  match change.kind with
  | .delete | .insert =>
    if viewport.getOffset < 0 then false
    else match safeAdd viewport.getOffset viewport.getCapacity with
      | none => false
      | some viewportEnd => decide (change.offset ≤ viewportEnd)
  | .overwrite => viewport.inSegment change.offset change.length
  | .transform => false

/-- The viewport after a change has been made or taken back. -/
def changed (viewport : Viewport) (change : Change) : Viewport :=
  let moved := updateViewportOffsetAdjustment change viewport
  if moved.touchedBy change then moved.markDirty else moved

/-- The viewport after a number of changes. -/
def changedAll (viewport : Viewport) (changes : List Change) : Viewport :=
  changes.foldl changed viewport

@[simp] lemma changedAll_nil (viewport : Viewport) : viewport.changedAll [] = viewport := rfl

@[simp] lemma changedAll_cons (viewport : Viewport) (change : Change) (rest : List Change) :
    viewport.changedAll (change :: rest) = (viewport.changed change).changedAll rest := rfl

/-- A viewport whose base and effective offset are values of `int64_t` that are not negative. -/
structure Placed (viewport : Viewport) : Prop where
  base_nonneg : 0 ≤ viewport.offset
  base_le : viewport.offset ≤ int64Max
  nonneg : 0 ≤ viewport.offset + viewport.offsetAdjustment
  le : viewport.offset + viewport.offsetAdjustment ≤ int64Max

lemma Placed.getOffset_eq {viewport : Viewport} (placed : viewport.Placed) :
    viewport.getOffset = viewport.offset + viewport.offsetAdjustment := by
  have sum : safeAdd viewport.offset viewport.offsetAdjustment =
      some (viewport.offset + viewport.offsetAdjustment) := by
    refine safeAdd_eq_some_iff.mpr ⟨rfl, fun _ => placed.le, fun _ => ?_⟩
    have := placed.nonneg
    unfold int64Min
    omega
  rw [getOffset, sum, Option.getD_some]

end Viewport

lemma changeAffectsViewport_eq {change : Change} {viewport : Viewport}
    (primitive : change.kind ≠ .transform) :
    changeAffectsViewport change viewport = .ok (viewport.touchedBy change) := by
  unfold changeAffectsViewport Viewport.touchedBy
  cases kind : change.kind with
  | transform => exact absurd kind primitive
  | overwrite => rfl
  | delete | insert =>
    by_cases negative : viewport.getOffset < 0
    · simp [negative]
    · cases reach : safeAdd viewport.getOffset viewport.getCapacity with
      | none | some viewportEnd => simp [negative]

lemma updateViewports_eq {change : Change} {viewports next : List Viewport}
    (adjusted : updateViewports change viewports = .ok next) :
    next = viewports.map (fun viewport => viewport.changed change) := by
  induction viewports generalizing next with
  | nil =>
    cases adjusted
    rfl
  | cons viewport rest ih =>
    obtain ⟨affected, asked, adjusted⟩ := bind_eq_ok.mp adjusted
    obtain ⟨others, later, adjusted⟩ := bind_eq_ok.mp adjusted
    cases adjusted
    have primitive : change.kind ≠ .transform := by
      intro kind
      rw [changeAffectsViewport, kind] at asked
      cases asked
    rw [changeAffectsViewport_eq primitive] at asked
    rw [List.map_cons, ih later, Viewport.changed, ← Except.ok.inj asked]

lemma updateViewportsAll_eq {changes : List Change} {viewports next : List Viewport}
    (adjusted : updateViewportsAll changes viewports = .ok next) :
    next = viewports.map (fun viewport => viewport.changedAll changes) := by
  induction changes generalizing viewports with
  | nil =>
    cases adjusted
    simp
  | cons change rest ih =>
    obtain ⟨middle, first, later⟩ := bind_eq_ok.mp adjusted
    rw [ih later, updateViewports_eq first, List.map_map]
    rfl

/-- A property of single viewports that every call keeps, given what holds of all changes. -/
structure ViewportInvariant (Q : Change → Prop) (P : Viewport → Prop) : Prop where
  changed : ∀ {change viewport}, Q change → P viewport → P (viewport.changed change)
  dirty : ∀ {viewport : Viewport}, P viewport → P viewport.markDirty
  created : ∀ {offset capacity isFloating}, Session.validViewport offset capacity = true →
    P { offset, offsetAdjustment := 0, capacity := -capacity, length := 0, isFloating, data := [] }
  modified : ∀ {viewport offset capacity isFloating}, P viewport →
    Session.validViewport offset capacity = true →
    P { viewport with offset, isFloating, offsetAdjustment := 0, capacity := -capacity, data := [] }
  filled : ∀ {viewport} (data : List Byte), P viewport →
    P { viewport with capacity := viewport.getCapacity, length := data.length, data }

lemma ViewportInvariant.changedAll {Q : Change → Prop} {P : Viewport → Prop}
    (invariant : ViewportInvariant Q P) {changes : List Change} (holds : ∀ change ∈ changes, Q change) {viewport : Viewport} (kept : P viewport) :
    P (viewport.changedAll changes) := by
  induction changes generalizing viewport with
  | nil => exact kept
  | cons change rest ih =>
    obtain ⟨first, later⟩ := List.forall_mem_cons.mp holds
    exact ih later (invariant.changed first kept)

namespace Session
variable {session next : Session} {result : Int} {Q : Change → Prop} {P : Viewport → Prop}

/-- The session shows only viewports with the property. -/
def Shows (P : Viewport → Prop) (session : Session) : Prop := ∀ viewport ∈ session.viewports, P viewport

lemma Shows.map {update : Viewport → Viewport} {viewports : List Viewport} (shows : session.Shows P)
    (kept : ∀ viewport, P viewport → P (update viewport))
    (mapped : viewports = session.viewports.map update) : ∀ viewport ∈ viewports, P viewport := by
  rw [mapped]
  intro viewport mem
  obtain ⟨old, oldMem, rfl⟩ := List.mem_map.mp mem
  exact kept old (shows old oldMem)

/-- A redo loop: the changes it redoes, and the session it leaves. -/
inductive RedoRun : Session → List Change → Session → Prop where
  | stop (session : Session) : RedoRun session [] session
  | touch {session : Session} {change : Change} {rest : List Change} (start : Int)
      (undone : session.top.changesUndone = change :: rest) :
      RedoRun session [] (session.withTop { session.top with
        changesUndone := change.startingAt start :: rest })
  | redo {session next : Session} {change : Change} {rest redone : List Change} {start : Int}
      {segments : List ModelSegment} {viewports : List Viewport}
      (undone : session.top.changesUndone = change :: rest)
      (applied : updateModel (change.negate.startingAt start) session.top.modelSegments =
        .ok (some segments))
      (adjusted : updateViewports (change.negate.startingAt start) session.viewports = .ok viewports)
      (later : RedoRun (session.redone (change.negate.startingAt start) rest segments viewports)
        redone next) :
      RedoRun session (change.negate.startingAt start :: redone) next

lemma redoTransaction_run {pending : List Change} (signed : session.top.Signed)
    (undone : session.top.changesUndone = pending)
    (done : redoTransaction pending session = .ok (next, result)) :
    ∃ redone, RedoRun session redone next := by
  induction pending generalizing session with
  | nil =>
    cases done
    exact ⟨[], .stop _⟩
  | cons change rest ih =>
    have negative := (signed.undone change (by rw [undone]; simp)).negative
    rcases redoTransaction_cases undone negative done with
      ⟨start, rfl, rfl⟩ | ⟨start, segments, viewports, applied, adjusted, continued⟩
    · exact ⟨[], .touch start undone⟩
    rcases continued with ⟨following, head, bits, done⟩ | ⟨stops, rfl, _⟩
    · obtain ⟨redone, later⟩ := ih (redone_signed signed undone) rfl done
      exact ⟨_, .redo undone applied adjusted later⟩
    · exact ⟨_, .redo undone applied adjusted (.stop _)⟩

lemma RedoRun.spec {redone : List Change} (run : RedoRun session redone next) :
    next.stack.below = session.stack.below ∧ next.stack.future = session.stack.future ∧
      next.top.changes = session.top.changes ++ redone ∧
      next.viewports = session.viewports.map (fun viewport => viewport.changedAll redone) := by
  induction run with
  | stop session => simp
  | touch start undone => exact ⟨rfl, rfl, by simp [withTop, top], by simp [withTop]⟩
  | @redo session next change rest redone start segments viewports undone applied adjusted later ih =>
    obtain ⟨below, future, changes, shown⟩ := ih
    refine ⟨below, future, ?_, ?_⟩
    · rw [changes]
      exact List.append_assoc _ [_] _
    · rw [shown]
      simp only [Session.redone]
      rw [updateViewports_eq adjusted, List.map_map]
      rfl

lemma Shows.marked (shows : session.Shows P) (invariant : ViewportInvariant Q P) :
    ∀ viewport ∈ markAllViewportsChanged session.viewports, P viewport :=
  shows.map (fun _ => invariant.dirty) rfl

lemma Edited.shows {describes : Change → Prop} (edited : Edited session describes next result)
    (invariant : ViewportInvariant Q P) (new : ∀ {model change}, NewChange model change → Q change)
    (shows : session.Shows P) : next.Shows P := by
  cases edited with
  | refused => exact shows
  | unbuilt =>
    rw [Shows, marked_viewports]
    exact shows
  | dropped =>
    rw [Shows, freed_viewports, marked_viewports]
    exact shows
  | recorded running recorded bit described applied adjusted =>
    exact shows.map (fun _ => invariant.changed (new recorded)) (updateViewports_eq adjusted)

lemma Undone.shows (undone : session.Undone next result) (invariant : ViewportInvariant Q P)
    (intrinsic : Intrinsic Q) (throughout : session.stack.All (Model.Throughout Q))
    (shows : session.Shows P) : next.Shows P := by
  cases undone with
  | nothing | refreshed => exact shows
  | transform => exact shows.marked invariant
  | transaction suspended last kind undone adjusted =>
    have exposed := suspended_all throughout
    rw [suspended] at exposed
    refine shows.map (fun _ => invariant.changedAll ?_) (updateViewportsAll_eq adjusted)
    intro change mem
    obtain ⟨active, activeMem, rfl⟩ := List.mem_map.mp (List.mem_reverse.mp mem)
    have holds := exposed.top.active active (lastTransaction_subset _ activeMem)
    exact (Change.throughout_iff.mp (holds.negate intrinsic)).1

lemma RedoRun.all {R : Model → Prop} {A U : Change → Prop} {redone : List Change}
    (run : RedoRun session redone next) (kept : Kept R A U) (all : session.stack.All R) :
    next.stack.All R := by
  induction run with
  | stop => exact all
  | touch start undone =>
    obtain ⟨first, later⟩ := kept.first all.top undone
    have touched := List.forall_mem_cons.mpr ⟨kept.undone start first, later⟩
    exact all.withTop (kept.withUndone all.top touched)
  | @redo session next change rest redone start segments viewports undone applied adjusted later ih =>
    obtain ⟨first, others⟩ := kept.first all.top undone
    exact ih (all.withTop (kept.recorded all.top (kept.active start (kept.restore first)) others))

/-- What redo leaves: models that are attached again, then the changes or the transform that
are redone, then models that are attached again. -/
inductive RedoneLast (session : Session) : Session → Int → Prop where
  | paused : RedoneLast session session 0
  | refused {result : Int} (answer : result = 0 ∨ result = -1) :
      RedoneLast session session.resumePlainCheckpointModels result
  | transform {resumed middle : Session} {change : Change} {rest : List Change}
      {transformData : TransformData}
      (resumes : session.resumePlainCheckpointModels = resumed)
      (undone : resumed.top.changesUndone = change :: rest) (kind : change.kind = .transform)
      (data : change.transformData = some transformData)
      (sized : 0 ≤ transformData.computedFileSizeAfter)
      (continues : -change.serial = resumed.numChanges + 1)
      (pushed : middle = { resumed.withStack ⟨resumed.top.withUndone rest :: resumed.stack.below,
          checkpointModel transformData.checkpointFile resumed.numChanges
            transformData.computedFileSizeAfter [change.released] change.preservedChangesUndone,
          resumed.stack.future⟩ with viewports := markAllViewportsChanged resumed.viewports }) :
      RedoneLast session middle.resumePlainCheckpointModels (-change.serial)
  | transaction {resumed middle : Session} {redone : List Change} {result : Int}
      (resumes : session.resumePlainCheckpointModels = resumed)
      (run : RedoRun resumed redone middle) :
      RedoneLast session (if result > 0 then middle.resumePlainCheckpointModels else middle) result

lemma redoLastUndo_redone (signed : session.stack.All Model.Signed)
    (done : session.redoLastUndo = .ok (next, result)) : RedoneLast session next result := by
  rw [redoLastUndo] at done
  split at done
  · cases done
    exact .paused
  have resumedSigned := (resumed_all signed).top
  dsimp only at done
  generalize resumes : session.resumePlainCheckpointModels = resumed at done resumedSigned
  cases undone : resumed.top.changesUndone with
  | nil =>
    rw [undone] at done
    cases done
    exact resumes ▸ .refused (.inl rfl)
  | cons first rest =>
    rw [undone] at done
    dsimp only at done
    split at done
    · rcases resumed.redoTransformCheckpoint_cases with ⟨same, answer⟩ |
        ⟨change, later, transformData, head, kind, data, sized, continues, same⟩
      · have refused : ¬ resumed.redoTransformCheckpoint.2 > 0 := by omega
        obtain ⟨⟨middle, reply⟩, redone, done⟩ := bind_eq_ok.mp done
        rw [Except.ok.inj redone] at same answer refused
        rw [if_neg refused] at done
        cases done
        rw [show middle = resumed from same]
        exact resumes ▸ .refused answer
      · have first : change ∈ resumed.top.changesUndone := by
          rw [head]
          simp
        have negative := (resumedSigned.undone change first).negative
        rw [same] at done
        obtain ⟨⟨middle, reply⟩, redone, done⟩ := bind_eq_ok.mp done
        obtain ⟨rfl, rfl⟩ := Prod.mk.inj (Except.ok.inj redone)
        rw [if_pos (by omega)] at done
        cases done
        exact .transform resumes head kind data sized continues rfl
    · obtain ⟨⟨middle, reply⟩, redo, done⟩ := bind_eq_ok.mp done
      obtain ⟨redone, run⟩ := redoTransaction_run resumedSigned undone redo
      have last : RedoneLast session (if reply > 0 then middle.resumePlainCheckpointModels else middle)
          reply := .transaction resumes run
      split at done
      · rename_i positive
        cases done
        rw [if_pos positive] at last
        exact last
      · rename_i refused
        cases done
        rw [if_neg refused] at last
        exact last

lemma RedoneLast.all {R : Model → Prop} {A U : Change → Prop}
    (redone : session.RedoneLast next result) (kept : Kept R A U) (all : session.stack.All R) :
    next.stack.All R := by
  have again := resumed_all all
  cases redone with
  | paused => exact all
  | refused answer => exact again
  | transform resumes undone kind data sized continues pushed =>
    rw [resumes] at again
    rw [pushed]
    obtain ⟨first, others⟩ := kept.first again.top undone
    refine resumed_all (ModelStack.all_iff.mpr ⟨kept.iff.mpr ⟨?_, kept.carried first⟩, ?_, again.future⟩)
    · intro other mem
      rw [List.mem_singleton.mp mem]
      exact kept.released first
    · exact List.forall_mem_cons.mpr ⟨kept.withUndone again.top others, again.below⟩
  | transaction resumes run =>
    rw [resumes] at again
    split
    · exact resumed_all (run.all kept again)
    · exact run.all kept again

lemma RedoneLast.shows (redone : session.RedoneLast next result) (invariant : ViewportInvariant Q P)
    (lasting : Lasting Q) (throughout : session.stack.All (Model.Throughout Q))
    (shows : session.Shows P) : next.Shows P := by
  have again := resumed_all throughout
  cases redone with
  | paused | refused answer => exact shows
  | transform resumes undone kind data sized continues pushed =>
    rw [pushed, ← resumes]
    exact shows.marked invariant
  | @transaction start middle redone reply resumes run =>
    obtain ⟨_, _, changes, shown⟩ := run.spec
    rw [← resumes] at run shown
    have active := (run.all (throughout_kept lasting) again).top.active
    have later : middle.Shows P := by
      refine shows.map (fun _ => invariant.changedAll ?_) shown
      intro change mem
      refine (Change.throughout_iff.mp (active change ?_)).1
      exact changes ▸ List.mem_append_right _ mem
    split
    · exact later
    · exact later

/-- What every state of a run has when its viewports are to keep a property. -/
structure Displays (Q : Change → Prop) (P : Viewport → Prop) (session : Session) : Prop where
  signed : session.stack.All Model.Signed
  throughout : session.stack.All (Model.Throughout Q)
  shows : session.Shows P

lemma Shows.set {viewport : Viewport} (shows : session.Shows P) (index : Nat) (kept : P viewport) :
    ∀ other ∈ session.viewports.set index viewport, P other := by
  intro other mem
  rcases List.mem_or_eq_of_mem_set mem with old | rfl
  · exact shows other old
  · exact kept

/-- The calls on viewports themselves, and those that only set flags. -/
lemma Shows.quiet {call : Call} (shows : session.Shows P) (invariant : ViewportInvariant Q P)
    (quiet : call.Quiet) (done : session.step call = .ok (next, result)) :
    next.stack = session.stack ∧ next.Shows P := by
  have returned : ∀ {outcome : Session × Int}, Except.ok (ε := Fault) outcome = .ok (next, result) →
      outcome.1.stack = session.stack ∧ outcome.1.Shows P →
      next.stack = session.stack ∧ next.Shows P := by
    intro outcome same kept
    rw [Except.ok.inj same] at kept
    exact kept
  cases call with
  | pauseChanges | resumeChanges => exact returned done ⟨rfl, shows⟩
  | beginTransaction | endTransaction | setUndoSnapshotInterval _ | setChangeInlinePayloadLimit _ =>
    refine returned done ?_
    simp only [beginTransaction, endTransaction, setUndoSnapshotInterval,
      setChangeInlinePayloadLimit]
    split
    · exact ⟨rfl, shows⟩
    · exact ⟨rfl, shows⟩
  | createViewport offset capacity isFloating =>
    refine returned done ?_
    rw [createViewport]
    split
    · rename_i valid
      refine ⟨rfl, fun viewport mem => ?_⟩
      rcases List.mem_append.mp mem with old | new
      · exact shows viewport old
      · rw [List.mem_singleton.mp new]
        exact invariant.created valid
    · exact ⟨rfl, shows⟩
  | modifyViewport index offset capacity isFloating =>
    refine returned done ?_
    rw [modifyViewport]
    split
    · exact ⟨rfl, shows⟩
    · rename_i viewport found
      split
      · rename_i valid
        split
        · have kept := shows viewport (List.mem_of_getElem? found)
          exact ⟨rfl, shows.set index (invariant.modified kept valid)⟩
        · exact ⟨rfl, shows⟩
      · exact ⟨rfl, shows⟩
  | getViewportData index =>
    have filled : session.getViewportData index = .ok (next, result) := done
    rw [getViewportData] at filled
    split at filled
    · exact returned filled ⟨rfl, shows⟩
    · rename_i viewport found
      split at filled
      · obtain ⟨populated, _, filled⟩ := bind_eq_ok.mp filled
        have kept := shows viewport (List.mem_of_getElem? found)
        exact returned filled ⟨rfl, shows.set index (invariant.filled _ kept)⟩
      · exact returned filled ⟨rfl, shows⟩
  | destroyViewport index =>
    refine returned done ⟨rfl, fun viewport mem => ?_⟩
    exact shows viewport (List.mem_of_mem_eraseIdx mem)
  | _ => exact absurd quiet id

section Displays
variable (lasting : Lasting Q) (invariant : ViewportInvariant Q P)
include lasting

lemma Displays.of_all (displays : session.Displays Q P)
    (models : ∀ {R : Model → Prop} {A U : Change → Prop}, Kept R A U → session.stack.All R →
      next.stack.All R) (shows : next.Shows P) : next.Displays Q P :=
  ⟨models signed_kept displays.signed, models (throughout_kept lasting) displays.throughout, shows⟩

include invariant

lemma Displays.leaves (displays : session.Displays Q P) (leaves : session.Leaves next) :
    next.Displays Q P := by
  refine displays.of_all lasting leaves.all ?_
  rw [Shows]
  rcases leaves.viewports with same | marked
  · rw [same]
    exact displays.shows
  · rw [marked]
    exact displays.shows.marked invariant

lemma Displays.quiet {call : Call} (displays : session.Displays Q P) (quiet : call.Quiet)
    (done : session.step call = .ok (next, result)) : next.Displays Q P := by
  obtain ⟨same, shows⟩ := displays.shows.quiet invariant quiet done
  exact displays.of_all lasting (fun _ all => same ▸ all) shows

lemma displays_closed : EditClosed (Displays Q P) where
  edit edit displays done := by
    have edited := (edit.attempt _).edited done
    exact displays.of_all lasting edited.all (edited.shows invariant lasting.new displays.shows)
  begins {session} displays := by
    have done : session.step .beginTransaction = .ok session.beginTransaction := rfl
    exact displays.quiet lasting invariant (by trivial) done
  ends {session} displays := by
    have done : session.step .endTransaction = .ok session.endTransaction := rfl
    exact displays.quiet lasting invariant (by trivial) done
  undo displays done := by
    have undone := undoLastChange_undone displays.signed done
    exact displays.of_all lasting undone.all
      (undone.shows invariant lasting.intrinsic displays.throughout displays.shows)

/-- Every call keeps a property of viewports that its operations on them keep. -/
lemma Displays.step {call : Call} (displays : session.Displays Q P)
    (done : session.step call = .ok (next, result)) : next.Displays Q P := by
  have closed := displays_closed lasting invariant
  have left : session.Leaves next → next.Displays Q P := displays.leaves lasting invariant
  by_cases quiet : call.Quiet
  · exact displays.quiet lasting invariant quiet done
  cases call with
  | insertBytes offset bytes length => exact closed.edit (.insert offset bytes length) displays done
  | delete offset length => exact closed.edit (.delete offset length) displays done
  | overwriteBytes offset bytes length =>
    exact closed.edit (.overwrite offset bytes length) displays done
  | replaceBytes offset deleteLength bytes insertLength => exact closed.replaceBytes displays done
  | applyScript ops => exact closed.applyScript displays done
  | replaceBytesCheckpointed _ _ _ _ _ _ => exact left (replaceBytesCheckpointed_answers _ done)
  | replaceAllBytes _ _ _ _ _ _ _ _ _ =>
    obtain ⟨outcome, answered, done⟩ := bind_eq_ok.mp done
    cases outcome with
    | none => cases done
    | some replaced =>
      cases done
      exact left (replaceAllBytesDirectional_answers _ _ _ _ _ _ _ _ _ _ answered)
  | applyTransform transform offset length => exact left (applyTransform_answers _ done)
  | undoLastChange => exact closed.undo displays done
  | redoLastUndo =>
    have redone := redoLastUndo_redone displays.signed done
    exact displays.of_all lasting redone.all
      (redone.shows invariant lasting displays.throughout displays.shows)
  | createCheckpoint => exact left (createCheckpoint_answers _ done)
  | checkoutCheckpoint checkpointCount => exact left (checkoutCheckpoint_answers _ done)
  | destroyLastCheckpoint =>
    have same : session.destroyLastCheckpoint.1 = next := congrArg Prod.fst (Except.ok.inj done)
    exact left (same ▸ destroyLastCheckpoint_leaves)
  | restoreLastCheckpoint => exact left (restoreLastCheckpoint_answers _ done)
  | restoreToChangeCount changeCount => exact left (restoreToChangeCount_answers _ done)
  | discardCheckpointFuture =>
    cases done
    exact left ⟨fun _ all => ModelStack.all_iff.mpr ⟨all.top, all.below, nofun⟩, .inl rfl⟩
  | clearChanges =>
    cases done
    exact left clearChanges_leaves
  | _ => exact absurd trivial quiet

end Displays

end Session

lemma Session.reaches_runCalls {calls : List Call} {start session next : Session}
    (reached : Transition.Reaches Session.step (fun _ _ => True) start session)
    (run : session.runCalls calls = .ok next) :
    Transition.Reaches Session.step (fun _ _ => True) start next := by
  induction calls generalizing session with
  | nil =>
    cases run
    exact reached
  | cons call rest ih =>
    obtain ⟨⟨middle, result⟩, first, later⟩ := bind_eq_ok.mp run
    exact ih (.step reached trivial first) later

/-- In every state of every run all viewports have a property that the calls keep. -/
theorem reaches_displays {Q : Change → Prop} {P : Viewport → Prop} (lasting : Lasting Q)
    (invariant : ViewportInvariant Q P) {allowed : Session → Call → Prop}
    {original : Option OriginalFile} {interval limit : Int} {session : Session}
    (reached : Transition.Reaches Session.step allowed (createSession original interval limit)
      session) : session.Displays Q P := by
  refine Transition.Reaches.invariant (P := fun session => session.Displays Q P) reached ?_ ?_
  · refine ⟨ModelStack.all_iff.mpr ⟨⟨?_, ?_⟩, ?_, ?_⟩, ModelStack.all_iff.mpr ⟨⟨?_, ?_⟩, ?_, ?_⟩, ?_⟩
    all_goals simp [Session.Shows, createSession]
  · intro state next call result displays _ done
    exact displays.step lasting invariant done

end OmegaEdit
