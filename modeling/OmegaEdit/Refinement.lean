import OmegaEdit.Api
import OmegaEdit.Recording

/-! The piece table refines a flat byte array. On segments that denote a content
no primitive edit fails inside, and what it does to the segments is a splice of
that content. -/
namespace OmegaEdit
open Splice

def Model.content (model : Model) : List Byte := segmentBytes model.fileBytes model.modelSegments

def Session.content (session : Session) : List Byte := session.top.content

/-- A model whose segments denote a content. -/
def Model.HasContent (model : Model) (content : List Byte) : Prop :=
  Denotes model.fileBytes model.modelSegments content

lemma Model.HasContent.content_eq {model : Model} {content : List Byte}
    (denotes : model.HasContent content) : model.content = content :=
  denotes.bytes_eq

/-- A change that is not a transform never stops a viewport update. -/
lemma updateViewports_isOk {change : Change} (primitive : change.kind ≠ .transform)
    (viewports : List Viewport) : ∃ adjusted, updateViewports change viewports = .ok adjusted := by
  induction viewports with
  | nil => exact ⟨[], rfl⟩
  | cons viewport rest ih =>
    obtain ⟨adjusted, done⟩ := ih
    have affected : ∀ viewport, ∃ affected, changeAffectsViewport change viewport = .ok affected := by
      intro viewport
      unfold changeAffectsViewport
      split
      · split
        · exact ⟨_, rfl⟩
        · split
          · exact ⟨_, rfl⟩
          · exact ⟨_, rfl⟩
      · split
        · exact ⟨_, rfl⟩
        · split
          · exact ⟨_, rfl⟩
          · exact ⟨_, rfl⟩
      · exact ⟨_, rfl⟩
      · rename_i transform
        exact absurd transform primitive
    obtain ⟨marks, affects⟩ := affected (updateViewportOffsetAdjustment change viewport)
    exact ⟨_, by simp only [updateViewports, affects, done, bind, Except.bind]; rfl⟩

namespace Session
variable {session : Session} {content : List Byte}

/-- The snapshots of the top model after one more change. -/
def newSnapshots (session : Session) (segments : List ModelSegment) : Snapshots :=
  if session.undoSnapshotInterval > 0 ∧
      ((session.top.changes.length + 1 : Nat) : Int) % session.undoSnapshotInterval = 0 then
    session.top.modelSnapshots.put ((session.top.changes.length + 1 : Nat) : Int) segments
  else session.top.modelSnapshots

lemma freed_interval : session.freed.undoSnapshotInterval = session.undoSnapshotInterval := by
  unfold freed
  split <;> rfl

lemma recorded_top (change : Change) (segments : List ModelSegment) (viewports : List Viewport) :
    (session.recorded change segments viewports).top = { session.top with
        changes := session.top.changes ++ [change]
        changesUndone := []
        modelSegments := segments
        modelSnapshots := session.newSnapshots segments } := by
  have top := session.freed_top
  have interval := session.freed_interval
  show (session.freed.recordChange change segments).top = _
  unfold recordChange withTop newSnapshots
  rw [top, interval]
  simp only [Session.top, Model.freeChangesUndone, List.length_append, List.length_singleton]
  rfl

lemma recorded_below (change : Change) (segments : List ModelSegment) (viewports : List Viewport) :
    (session.recorded change segments viewports).stack.below = session.freed.stack.below := rfl

lemma marked_paused : session.marked.changesPaused = session.changesPaused := by
  rw [marked, determineChangeTransactionBit]
  split <;> rfl

lemma freed_below : session.freed.stack.below =
    if session.top.changesUndone.isEmpty then session.stack.below
    else session.stack.below.map Model.freeChangesUndone := by
  rw [freed]
  split <;> rfl

lemma recorded_paused (change : Change) (segments : List ModelSegment) (viewports : List Viewport) :
    (session.recorded change segments viewports).changesPaused = session.changesPaused := by
  rw [recorded, recordChange, freed]
  split <;> rfl

lemma recorded_opened (change : Change) (segments : List ModelSegment) (viewports : List Viewport) :
    (session.recorded change segments viewports).transactionOpened = session.transactionOpened := by
  rw [recorded, recordChange, freed]
  split <;> rfl

lemma recorded_inProgress (change : Change) (segments : List ModelSegment)
    (viewports : List Viewport) : (session.recorded change segments viewports).transactionInProgress =
      session.transactionInProgress := by
  rw [recorded, recordChange, freed]
  split <;> rfl

lemma updateNew_eq {change : Change} (denotes : session.top.HasContent content)
    (new : NewChange session.top change) :
    ∃ start segments viewports,
      updateModel (change.startingAt start) session.top.modelSegments = .ok (some segments) ∧
      updateViewports (change.startingAt start) session.viewports = .ok viewports ∧
      session.marked.updateNew (some change) =
        .ok (session.marked.recorded (change.startingAt start) segments viewports,
          change.serial) := by
  have inside : change.offset ≤ session.marked.computedFileSize := by
    rw [computedFileSize, marked_top]
    exact new.offset_le
  obtain ⟨start, updates⟩ := update_new new.serial_pos inside
  rw [marked_top, marked_viewports] at updates
  obtain ⟨segments, applied, _⟩ := Denotes.updateModel denotes
    ((new.startingAt start).fits content denotes)
  obtain ⟨viewports, adjusted⟩ :=
    updateViewports_isOk (new.startingAt start).primitive session.viewports
  refine ⟨start, segments, viewports, applied, adjusted, ?_⟩
  simp only [updateNew, updates, applied, adjusted, bind, Except.bind]

/-- A primitive edit on segments that denote a content does not fail inside. -/
lemma Attempt.isOk {describes : Change → Prop} {outcome : Except Fault (Session × Int)}
    (attempt : Attempt session describes outcome) (denotes : session.top.HasContent content) :
    ∃ answer, outcome = .ok answer := by
  cases attempt with
  | refused | unbuilt => exact ⟨_, rfl⟩
  | unread reached nonneg inside failed =>
    have size := session.size_eq_length denotes
    obtain ⟨payload, captured, _⟩ :=
      captureSessionRangePayload_eq denotes reached nonneg (by omega)
    rw [captured] at failed
    cases failed
  | built running new bit described =>
    obtain ⟨start, segments, viewports, _, _, done⟩ := updateNew_eq denotes new
    exact ⟨_, done⟩

/-- What a primitive edit does to the content. -/
lemma Edited.denotes {describes : Change → Prop} {next : Session} {result : Int}
    (edited : Edited session describes next result) (denotes : session.top.HasContent content) :
    ((result = 0 ∨ result = -1) ∧ next.top.HasContent content) ∨
      ∃ change, describes change ∧ change.Fits content ∧ 0 < result ∧
        next.top.HasContent (change.apply content) := by
  cases edited with
  | refused answer => exact .inl ⟨answer, denotes⟩
  | unbuilt =>
    refine .inl ⟨.inr rfl, ?_⟩
    rw [marked_top]
    exact denotes
  | dropped new failed =>
    obtain ⟨segments, applied, _⟩ := Denotes.updateModel denotes (new.fits content denotes)
    rw [applied] at failed
    cases failed
  | recorded running new bit described applied adjusted =>
    have fits := new.fits content denotes
    obtain ⟨segments, edited, after⟩ := Denotes.updateModel denotes fits
    rw [edited] at applied
    cases applied
    refine .inr ⟨_, described, fits, new.serial_pos, ?_⟩
    rw [recorded_top, marked_top]
    exact after

end Session

lemma denotes_initializeModelSegments {file : List Byte} (small : (file.length : Int) ≤ int64Max) :
    Denotes file (initializeModelSegments file.length) file := by
  unfold initializeModelSegments
  by_cases empty : (file.length : Int) ≤ 0
  · have none : file = [] := by
      rw [← List.length_eq_zero_iff]
      omega
    subst none
    exact ⟨⟨trivial, by simp, by decide⟩, rfl⟩
  · rw [if_neg empty]
    refine ⟨⟨⟨rfl, trivial⟩, ?_, ?_⟩, ?_⟩
    · intro segment mem
      rw [List.mem_singleton] at mem
      subst mem
      refine ⟨by show (0 : Int) < file.length; omega, Int.le_refl 0, ?_, Int.le_refl _, small, ?_⟩
      · show (0 : Int) + file.length ≤ file.length
        omega
      · intro kind
        cases kind
    · show (file.length : Int) + 0 ≤ int64Max
      omega
    · simp [segmentBytes, ModelSegment.bytes, ModelSegment.source, ModelSegment.kind, slice]

def originalBytes : Option OriginalFile → List Byte
  | none => []
  | some original => original.bytes

lemma createSession_denotes (original : Option OriginalFile) (interval limit : Int) :
    (createSession original interval limit).top.HasContent (originalBytes original) := by
  cases original with
  | none => exact denotes_initializeModelSegments (by decide : (([] : List Byte).length : Int) ≤ _)
  | some original => exact denotes_initializeModelSegments original.small

/-- The edits of one range. -/
inductive PrimitiveEdit where
  | insert (offset : Int) (bytes : BytesPointer) (length : Int)
  | delete (offset length : Int)
  | overwrite (offset : Int) (bytes : BytesPointer) (length : Int)

namespace PrimitiveEdit

def call : PrimitiveEdit → Call
  | insert offset bytes length => .insertBytes offset bytes length
  | delete offset length => .delete offset length
  | overwrite offset bytes length => .overwriteBytes offset bytes length

/-- An edit of a flat byte array. -/
def splice (edit : PrimitiveEdit) (content : List Byte) : List Byte :=
  let covered (offset length : Int) : Nat := (min length (content.length - offset)).toNat
  match edit with
  | insert offset bytes length => Splice.splice content offset.toNat 0 (readPointer bytes length)
  | delete offset length => Splice.splice content offset.toNat (covered offset length) []
  | overwrite offset bytes length =>
    Splice.splice content offset.toNat (covered offset length) (readPointer bytes length)

/-- What an edit asks a change to be, on a content of the given size. -/
def Describes (edit : PrimitiveEdit) (size : Int) (change : Change) : Prop :=
  match edit with
  | insert offset bytes length => Session.DescribesInsert offset bytes length change
  | delete offset length => Session.DescribesDelete size offset length change
  | overwrite offset bytes length => Session.DescribesOverwrite offset bytes length change

lemma attempt (edit : PrimitiveEdit) (session : Session) :
    session.Attempt (edit.Describes session.computedFileSize) (session.step edit.call) := by
  cases edit with
  | insert offset bytes length => exact session.insertBytes_attempt offset bytes length
  | delete offset length => exact session.delete_attempt offset length
  | overwrite offset bytes length => exact session.overwriteBytes_attempt offset bytes length

/-- The change an edit records splices the content as the edit says. -/
lemma apply_eq_splice {edit : PrimitiveEdit} {content : List Byte} {change : Change}
    (described : edit.Describes content.length change) (fits : change.Fits content) :
    change.apply content = edit.splice content := by
  cases edit with
  | insert offset bytes length =>
    obtain ⟨kind, rfl, rfl, memory, rfl, data⟩ := described
    simp [Change.apply, kind, splice, readPointer, data]
  | delete offset length =>
    obtain ⟨kind, rfl, covered⟩ := described
    simp [Change.apply, kind, splice, covered]
  | overwrite offset bytes length =>
    obtain ⟨kind, rfl, rfl, memory, rfl, data⟩ := described
    have range := ((Change.fits_iff_of_ne (by simp [kind])).mp fits).1
    have reached := range.offset_nonneg
    have covered : (min change.length ((content.length : Int) - change.offset)).toNat =
        min change.length.toNat (content.length - change.offset.toNat) := by omega
    simp [Change.apply, kind, splice, readPointer, data, covered, splice_clip]

end PrimitiveEdit

/-- The content a list of edits leaves of a flat byte array, given what each of them returned. -/
def spliceAccepted : List (PrimitiveEdit × Int) → List Byte → List Byte
  | [], content => content
  | (edit, result) :: rest, content =>
    spliceAccepted rest (if 0 < result then edit.splice content else content)

/-- A run of calls with what each of them returned. -/
def Session.runAnswers : List Call → Session → Except Fault (Session × List Int)
  | [], session => .ok (session, [])
  | call :: rest, session => do
    let (session, result) ← session.step call
    let (session, results) ← session.runAnswers rest
    .ok (session, result :: results)

/-- An accepted edit makes the change that it describes and takes the next serial; any other leaves
the models. -/
lemma Session.step_primitive {session : Session} {content : List Byte} (edit : PrimitiveEdit)
    (denotes : session.top.HasContent content) :
    ∃ next result, session.step edit.call = .ok (next, result) ∧
      ((0 < result ∧ (∃ change, edit.Describes content.length change ∧ change.Fits content ∧
            change.apply content = edit.splice content) ∧ next.top.HasContent (edit.splice content) ∧
          session.changesPaused = false ∧ next.changesPaused = false ∧
          next.numChanges = session.numChanges + 1) ∨
        ((result = 0 ∨ result = -1) ∧ next.stack = session.stack)) := by
  have attempt := edit.attempt session
  have size := session.size_eq_length denotes
  rw [size] at attempt
  obtain ⟨⟨next, result⟩, done⟩ := attempt.isOk denotes
  refine ⟨next, result, done, ?_⟩
  have edited := attempt.edited done
  have holds := edited.denotes denotes
  cases edited with
  | refused answer => exact .inr ⟨answer, rfl⟩
  | unbuilt => exact .inr ⟨.inr rfl, marked_stack⟩
  | dropped new failed =>
    obtain ⟨segments, applied, _⟩ := Denotes.updateModel denotes (new.fits content denotes)
    rw [applied] at failed
    cases failed
  | recorded running new bit described applied adjusted =>
    rcases holds with ⟨answer, _⟩ | ⟨change, shown, fits, positive, after⟩
    · have := new.serial_pos
      omega
    · have splices := PrimitiveEdit.apply_eq_splice shown fits
      rw [splices] at after
      refine .inl ⟨positive, ⟨change, shown, fits, splices⟩, after, running, ?_, ?_⟩
      · rw [recorded_paused, marked_paused, running]
      · rw [numChanges, recorded_top, marked_top, numChanges, Model.numChanges, Model.numChanges]
        simp only [List.length_append, List.length_singleton]
        omega

/-- One primitive edit refines one splice. -/
lemma primitiveEdit_refines {session : Session} {content : List Byte} (edit : PrimitiveEdit)
    (denotes : session.top.HasContent content) :
    ∃ next result, session.step edit.call = .ok (next, result) ∧
      (0 < result ∨ result = 0 ∨ result = -1) ∧
      next.top.HasContent (if 0 < result then edit.splice content else content) := by
  obtain ⟨next, result, done, ⟨positive, _, after, _⟩ | ⟨answer, same⟩⟩ :=
    session.step_primitive edit denotes
  · refine ⟨next, result, done, .inl positive, ?_⟩
    rwa [if_pos positive]
  · refine ⟨next, result, done, .inr answer, ?_⟩
    rwa [if_neg (by omega), Session.top, same]

/-- A run of primitive edits refines the splices of those that returned a serial. -/
lemma runAnswers_refines (edits : List PrimitiveEdit) {session : Session} {content : List Byte}
    (denotes : session.top.HasContent content) :
    ∃ next results, session.runAnswers (edits.map PrimitiveEdit.call) = .ok (next, results) ∧
      results.length = edits.length ∧ (∀ result ∈ results, 0 < result ∨ result = 0 ∨ result = -1) ∧
      next.top.HasContent (spliceAccepted (edits.zip results) content) := by
  induction edits generalizing session content with
  | nil => exact ⟨session, [], rfl, rfl, by simp, denotes⟩
  | cons edit rest ih =>
    obtain ⟨after, result, stepped, answer, middle⟩ := primitiveEdit_refines edit denotes
    obtain ⟨next, results, run, length, answers, final⟩ := ih middle
    refine ⟨next, result :: results, ?_, by simp [length], ?_, final⟩
    · simp only [List.map_cons, Session.runAnswers, stepped, run, bind, Except.bind]
    · intro other mem
      rcases List.mem_cons.mp mem with rfl | later
      · exact answer
      · exact answers other later

/-- The content of a session is what the splices of the accepted edits make of the original bytes,
and the computed file size is its length, after any number of primitive edits. -/
theorem runAnswers_content_eq_splices (original : Option OriginalFile) (interval limit : Int)
    (edits : List PrimitiveEdit) :
    ∃ session results,
      (createSession original interval limit).runAnswers (edits.map PrimitiveEdit.call) =
        .ok (session, results) ∧ results.length = edits.length ∧
      (∀ result ∈ results, 0 < result ∨ result = 0 ∨ result = -1) ∧
      session.content = spliceAccepted (edits.zip results) (originalBytes original) ∧
      session.computedFileSize = session.content.length := by
  obtain ⟨session, results, run, length, answers, denotes⟩ :=
    runAnswers_refines edits (createSession_denotes original interval limit)
  refine ⟨session, results, run, length, answers, denotes.content_eq, ?_⟩
  have content : session.content = _ := denotes.content_eq
  rw [content]
  exact computedFileSize_eq denotes

end OmegaEdit
