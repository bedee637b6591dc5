import OmegaEdit.Anchors
import OmegaEdit.SessionReads
import OmegaEdit.Trajectory

/-! What the layers say together about whole runs: of the history of all models, of what is read
after edits, undo and redo, of the byte under a viewport, and of a file that is saved and opened. -/
namespace OmegaEdit
open Transition Splice
variable {original : Option OriginalFile} {interval limit : Int} {session : Session}

/-- In every state of every run the serials of all models tell the active changes from the undone
ones, down to those that an undone transform carries, and no viewport has left the 64 bits. -/
theorem reached_history_signed
    (reached : Reaches Session.step (fun _ _ => True) (createSession original interval limit) session) :
    (∀ model ∈ session.stack.order, model.Signed ∧ model.Throughout Change.Ranged) ∧
      ∀ viewport ∈ session.viewports, 0 ≤ viewport.getOffset ∧ viewport.getOffset ≤ int64Max := by
  obtain ⟨signed, throughout, placed⟩ := reaches_displays Change.ranged_lasting placed_invariant reached
  constructor
  · intro model mem
    exact ⟨signed model mem, throughout model mem⟩
  · intro viewport mem
    have here := placed viewport mem
    rw [here.getOffset_eq]
    exact ⟨here.nonneg, here.le⟩

/-- Three bytes, a floating viewport at the second, and a byte inserted in front of it. -/
def shiftedViewport : List Call :=
  [.insertBytes 0 (some fun _ => 97) 3, .createViewport 1 1 true, .insertBytes 0 (some fun _ => 98) 1]

theorem reached_history_signed_undone : ∃ session,
    Session.runCalls (shiftedViewport ++ [.createCheckpoint, .undoLastChange])
      (createSession none 0 0) = .ok session ∧ ∀ model ∈ session.stack.order, model.Signed := by
  have run : ∃ session, Session.runCalls (shiftedViewport ++ [.createCheckpoint, .undoLastChange])
    (createSession none 0 0) = .ok session := ⟨_, rfl⟩
  obtain ⟨session, run⟩ := run
  have signed := (reached_history_signed (Session.reaches_runCalls .refl run)).1
  exact ⟨session, run, fun model mem => (signed model mem).1⟩

/-- After any edits, transactions, undos and redos in one model the segments, the snapshots and the
undone changes agree with the active changes, and a read gives what these make of the original. -/
theorem run_reads_replayed (original : Option OriginalFile) (interval limit : Int)
    (calls : List { call : Call // call.InsideModel }) : ∃ session answers,
      (createSession original interval limit).runAnswers (calls.map Subtype.val) =
        .ok (session, answers) ∧
      session.top.Sound ∧ session.top.fileBytes = originalBytes original ∧
      let content := replay session.top.changes (originalBytes original)
      session.computedFileSize = content.length ∧
        ∀ offset capacity : Int, 0 ≤ offset → offset ≤ content.length → 0 ≤ capacity →
          getSegment session.top offset capacity =
            .ok (some (slice content offset.toNat capacity.toNat)) := by
  have inside : ∀ call ∈ calls.map Subtype.val, call.InsideModel := by
    intro call mem
    obtain ⟨own, _, rfl⟩ := List.mem_map.mp mem
    exact own.2
  obtain ⟨session, _, answers, run, _, alike, file⟩ := Session.AlikeOver.runAnswers _ inside
    ⟨createSession_alike original interval limit interval limit, rfl⟩
  have bytes : session.top.fileBytes = originalBytes original := by
    rw [Model.fileBytes_eq, file]
    cases original <;> rfl
  have sound := alike.leftSingle.sound
  have denotes := sound.denotes
  rw [bytes] at denotes
  refine ⟨session, answers, run, sound, bytes, session.size_eq_length denotes, ?_⟩
  intro offset capacity reached inside room
  exact getSegment_eq denotes reached inside room

/-- Outside of one model a state need not have a content. The checkout gives the deletion back to a
model that still shows the bytes, and a later insertion behind them is replayed over nothing. -/
theorem reached_without_content : ∃ session,
    Reaches Session.step (fun _ _ => True) (createSession (some omegaFile) 0 0) session ∧
      ∀ content, ¬ session.top.HasContent content := by
  obtain ⟨session, reached, shows⟩ := Transition.exists_reaches Session.step (fun _ _ => True)
    (createSession (some omegaFile) 0 0)
    (fun session => decide (session.top.modelSegments.map ModelSegment.computedOffset = [5]))
    [.delete 0 5, .createCheckpoint, .undoLastChange, .checkoutCheckpoint 1, .destroyLastCheckpoint,
      .insertBytes 5 (some fun _ => 115) 1, .insertBytes 0 (some fun _ => 97) 1, .restoreToChangeCount 2]
    (by decide +kernel)
  obtain ⟨segment, single, offset⟩ := List.map_eq_singleton_iff.mp (of_decide_eq_true shows)
  refine ⟨session, reached, fun content denotes => ?_⟩
  have contiguous := denotes.wellFormed.contiguous
  rw [single] at contiguous
  cases offset.symm.trans contiguous.1

/-- The byte at which a floating viewport stands is the same byte after an edit that keeps it. -/
theorem floating_viewport_keeps_byte {index : Nat} {viewport : Viewport} {content : List Byte}
    (reached : Reaches Session.step (fun _ _ => True) (createSession original interval limit) session)
    (found : session.viewports[index]? = some viewport) (floating : viewport.isFloating = true)
    (denotes : session.top.HasContent content) (inside : viewport.getOffset < content.length)
    (edit : PrimitiveEdit) {next : Session} {result : Int}
    (done : session.step edit.call = .ok (next, result)) (accepted : 0 < result) :
    ∃ change after, next.activeChanges = session.activeChanges ++ [change] ∧
      next.top.HasContent after ∧ ∀ place, change.position viewport.getOffset = some place →
        (change.kind = .overwrite → viewport.getOffset < change.offset ∨
          change.offset + change.length ≤ viewport.getOffset) →
        next.viewportOffset index = some place ∧
          after[place.toNat]? = content[viewport.getOffset.toNat]? := by
  have displays := reaches_displays Change.ranged_lasting placed_invariant reached
  have placed := displays.shows viewport (List.mem_of_getElem? found)
  have edited := (edit.attempt session).edited done
  cases edited with
  | refused answer => omega
  | unbuilt | dropped => cases accepted
  | @recorded change segments viewports running new bit described applied adjusted =>
    have fits := new.fits content denotes
    obtain ⟨changed, updated, after⟩ := Denotes.updateModel denotes fits
    cases updated.symm.trans applied
    refine ⟨change, change.apply content, ?_, ?_, fun place moved kept => ⟨?_, ?_⟩⟩
    · rw [Session.activeChanges, Session.recorded_stack, ModelStack.activeChanges_recorded,
        Session.marked_stack]
      rfl
    · rw [Session.recorded_top, Session.marked_top]
      exact after
    · exact Session.viewportOffset_of_position found placed floating new.shaped new.primitive
        (updateViewports_eq adjusted) moved
    · refine ((Change.fits_iff_of_ne new.primitive).mp fits).getElem?_position ?_ inside moved kept
      rw [placed.getOffset_eq]
      exact placed.nonneg

/-- The byte in front of the viewport is deleted. -/
theorem floating_viewport_keeps_byte_deleted : ∃ session next,
    Session.runCalls [.createViewport 1 1 true] (createSession (some omegaFile) 0 0) = .ok session ∧
      session.step (.delete 0 1) = .ok (next, 1) ∧ next.viewportOffset 0 = some 0 ∧
      ∃ after, next.top.HasContent after ∧ after[0]? = some 109 := by
  refine ⟨_, _, rfl, rfl, ?_⟩
  have run : Session.runCalls [.createViewport 1 1 true] (createSession (some omegaFile) 0 0) =
    .ok _ := rfl
  obtain ⟨change, after, changes, denotes, kept⟩ :=
    floating_viewport_keeps_byte (Session.reaches_runCalls .refl run) List.getElem?_cons_zero rfl
      (createSession_denotes (some omegaFile) 0 0) (by decide) (.delete 0 1) rfl (by decide)
  obtain rfl := (List.cons.inj changes).1
  obtain ⟨offset, byte⟩ := kept 0 rfl nofun
  exact ⟨offset, after, denotes, byte⟩

/-- A content that is saved as a whole is there again when the file is opened. -/
theorem saved_content_reopens {workspace : Workspace} {request : SaveRequest}
    {surroundings : Surroundings} {saved : Saved} {content : List Byte}
    (denotes : workspace.session.top.HasContent content) (whole : request.offset = 0 ∧ request.length ≤ 0)
    (done : workspace.saveSegmentWithOptions request surroundings = .ok saved)
    (zero : saved.result = 0) : ∃ path file, saved.savedFilePath = some path ∧
      saved.workspace.disk path = some file ∧ ∀ small interval limit,
        (createSession (some ⟨file.bytes, small⟩) interval limit).top.HasContent content := by
  obtain ⟨path, bytes, stores⟩ := (saveSegmentWithOptions_saves done).stores zero
  refine ⟨path, _, stores.named, stores.stored, fun small interval limit => ?_⟩
  have size := workspace.session.size_eq_length denotes
  have all := stores.bytes_eq denotes
  simp only [Workspace.adjustedLength, whole.1, if_pos whole.2, size, Int.sub_zero, Int.toNat_natCast,
    Int.toNat_zero, slice_all] at all
  subst all
  exact createSession_denotes (some ⟨_, small⟩) interval limit

theorem saved_content_reopens_byte : ∃ saved,
    smallWorkspace.saveSegmentWithOptions overwriteRequest quietSurroundings = .ok saved ∧
      ∃ path file, saved.workspace.disk path = some file ∧ ∀ small,
        (createSession (some ⟨file.bytes, small⟩) 0 0).top.HasContent [1] := by
  have done : ∃ saved, smallWorkspace.saveSegmentWithOptions overwriteRequest quietSurroundings =
    .ok saved ∧ saved.result = 0 := ⟨_, by rfl, by rfl⟩
  obtain ⟨saved, done, zero⟩ := done
  obtain ⟨path, file, _, stored, opens⟩ := saved_content_reopens
    (createSession_denotes (some ⟨[1], by decide⟩) 0 memoryBufferLimit) (by decide) done zero
  exact ⟨saved, done, path, file, stored, fun small => opens small 0 0⟩

end OmegaEdit
