import OmegaEdit.ReadPaths
import OmegaEdit.Update
import OmegaEdit.Library.Transition

/-! What a primitive edit can do to a session: nothing, or set the mark of the
transaction in progress, or drop the undone changes and then fail, or record one
change. The third case is possible only for segments that are not contiguous; it
is ruled out where the invariants of the segments are available. -/
namespace OmegaEdit
open Splice
open Transition (bind_eq_ok)
variable {bytes : List Byte} {payload deleted replaced : Payload}
  {serial offset length result : Int} {bit : Bool} {change : Change} {updated : Updated}
  {describes : Change → Prop} {next : Session} {outcome : Except Fault (Session × Int)}
  {memory : Nat → Byte}

/-- A range inside `int64_t` that is not empty. -/
structure Change.Shaped (change : Change) : Prop where
  offset_nonneg : 0 ≤ change.offset
  positive : 0 < change.length
  end_le : change.offset + change.length ≤ int64Max

/-- The same change in a transaction that starts at another serial. -/
def Change.startingAt (change : Change) (start : Int) : Change :=
  { change with transactionStartSerial := start }

lemma Change.startingAt_self (change : Change) :
    change.startingAt change.transactionStartSerial = change := by
  cases change
  rfl

/-- A primitive change that continues the changes of a model. -/
structure NewChange (model : Model) (change : Change) : Prop where
  serial_eq : change.serial = model.numChanges + 1
  serial_pos : 0 < change.serial
  serial_le : change.serial ≤ int64Max
  primitive : change.kind ≠ .transform
  preserved : change.preservedChangesUndone = []
  shaped : change.Shaped
  offset_le : change.offset ≤ model.computedFileSize
  room : change.kind = .insert → model.computedFileSize + change.length ≤ int64Max
  fits : ∀ content, Denotes model.fileBytes model.modelSegments content → change.Fits content

lemma populatePayloadInline_eq (built : populatePayloadInline bytes = some payload) :
    payload = ⟨.inline, bytes⟩ := by
  unfold populatePayloadInline at built
  split at built
  · cases built
  · split at built
    · cases built
      rfl
    · cases built

lemma populatePayloadFileBacked_eq (built : populatePayloadFileBacked bytes = some payload) :
    payload = ⟨.fileBacked, bytes⟩ := by
  unfold populatePayloadFileBacked at built
  split at built
  · cases built
  · cases built
    rfl

lemma del_eq_some (built : del serial offset length deleted bit = some change) :
    ∃ storage, storage ≠ .none ∧ (deleted.bytes.length : Int) = length ∧
      change = { delRange serial offset length bit with data := ⟨storage, deleted.bytes⟩ } := by
  unfold del at built
  by_cases whole : (deleted.bytes.length : Int) = length
  · rw [if_neg (by omega)] at built
    cases storage : deleted.storage with
    | fileBacked =>
      rw [storage] at built
      obtain ⟨data, populated, made⟩ := Option.bind_eq_some_iff.mp built
      cases made
      exact ⟨.fileBacked, by simp, whole, by rw [populatePayloadFileBacked_eq populated]⟩
    | none | inline =>
      rw [storage] at built
      obtain ⟨data, populated, made⟩ := Option.bind_eq_some_iff.mp built
      cases made
      exact ⟨.inline, by simp, whole, by rw [populatePayloadInline_eq populated]⟩
  · rw [if_pos whole] at built
    cases built

lemma ins_eq_some (built : ins serial offset bytes length bit = some change) :
    change = { delRange serial offset length bit with
      data := ⟨.inline, bytes⟩, kind := .insert } := by
  unfold ins at built
  split at built
  · cases built
  · obtain ⟨data, populated, made⟩ := Option.bind_eq_some_iff.mp built
    cases made
    rw [populatePayloadInline_eq populated]
    rfl

lemma ovr_eq_some (built : ovr serial offset bytes length replaced bit = some change) :
    ∃ storage, (storage = .none → replaced.bytes = []) ∧
      change = { delRange serial offset length bit with
        data := ⟨.inline, bytes⟩, inverseData := ⟨storage, replaced.bytes⟩, kind := .overwrite } := by
  unfold ovr at built
  split at built
  · cases built
  · obtain ⟨data, populated, made⟩ := Option.bind_eq_some_iff.mp built
    rw [populatePayloadInline_eq populated] at made
    obtain ⟨storage, replacedBytes⟩ := replaced
    cases replacedBytes with
    | nil =>
      refine ⟨.none, fun _ => rfl, ?_⟩
      cases storage <;> (cases made; rfl)
    | cons byte rest =>
      cases storage with
      | fileBacked =>
        obtain ⟨inverse, captured, made⟩ := Option.bind_eq_some_iff.mp made
        cases made
        exact ⟨.fileBacked, by simp, by rw [populatePayloadFileBacked_eq captured]; rfl⟩
      | none | inline =>
        obtain ⟨inverse, captured, made⟩ := Option.bind_eq_some_iff.mp made
        cases made
        exact ⟨.inline, by simp, by rw [populatePayloadInline_eq captured]; rfl⟩

lemma populatePayloadInline_isSome (nonempty : bytes ≠ [])
    (small : (bytes.length : Int) ≤ memoryBufferLimit) :
    populatePayloadInline bytes = some ⟨.inline, bytes⟩ := by
  have positive := List.length_pos_iff.mpr nonempty
  have valid : dataCapacityValid bytes.length = true := by
    rw [memoryBufferLimit] at small
    have below : (bytes.length : Int) ≠ int64Max := by
      rw [int64Max]
      omega
    simp [dataCapacityValid, below]
  rw [populatePayloadInline, if_neg (by omega), if_pos valid]

lemma populatePayloadFileBacked_isSome (nonempty : bytes ≠ []) :
    populatePayloadFileBacked bytes = some ⟨.fileBacked, bytes⟩ := by
  have positive := List.length_pos_iff.mpr nonempty
  rw [populatePayloadFileBacked, if_neg (by omega)]

lemma del_isSome (nonempty : deleted.bytes ≠ []) (whole : (deleted.bytes.length : Int) = length)
    (small : deleted.storage ≠ .fileBacked → (deleted.bytes.length : Int) ≤ memoryBufferLimit) :
    ∃ change, del serial offset length deleted bit = some change := by
  rw [del, if_neg (by omega)]
  cases storage : deleted.storage with
  | fileBacked => exact ⟨_, by simp only [populatePayloadFileBacked_isSome nonempty]; rfl⟩
  | none | inline =>
    exact ⟨_, by simp only [populatePayloadInline_isSome nonempty (small (by simp [storage]))]; rfl⟩

/-- Whether an overwrite can be built depends on its own bytes only. -/
lemma ovr_isSome_iff
    (small : replaced.storage ≠ .fileBacked → (replaced.bytes.length : Int) ≤ memoryBufferLimit) :
    (ovr serial offset bytes length replaced bit).isSome ↔
      ¬ (serial ≤ 0 ∨ validNonnegativeRange offset length = false) ∧
        (populatePayloadInline bytes).isSome := by
  rw [ovr]
  by_cases refused : serial ≤ 0 ∨ validNonnegativeRange offset length = false
  · simp [refused]
  rw [if_neg refused]
  cases data : populatePayloadInline bytes with
  | none => simp
  | some payload =>
    obtain ⟨storage, replacedBytes⟩ := replaced
    cases replacedBytes with
    | nil => cases storage <;> simp [refused]
    | cons byte rest =>
      have nonempty : byte :: rest ≠ [] := List.cons_ne_nil byte rest
      cases storage with
      | fileBacked => simp [refused, populatePayloadFileBacked_isSome nonempty]
      | none | inline => simp [refused, populatePayloadInline_isSome nonempty (small (by simp))]

@[simp] lemma length_readMemory (memory : Nat → Byte) (length : Int) :
    (readMemory memory length).length = length.toNat := by
  simp [readMemory]

lemma Change.Shaped.startingAt (shaped : change.Shaped) (start : Int) :
    (change.startingAt start).Shaped :=
  ⟨shaped.offset_nonneg, shaped.positive, shaped.end_le⟩

lemma Change.fits_startingAt {content : List Byte} (start : Int) :
    (change.startingAt start).Fits content ↔ change.Fits content :=
  fits_relabel change.serial start Iff.rfl

lemma NewChange.startingAt {model : Model} (new : NewChange model change) (start : Int) :
    NewChange model (change.startingAt start) where
  serial_eq := new.serial_eq
  serial_pos := new.serial_pos
  serial_le := new.serial_le
  primitive := new.primitive
  preserved := new.preserved
  shaped := new.shaped.startingAt start
  offset_le := new.offset_le
  room := new.room
  fits content denotes := (Change.fits_startingAt start).mpr (new.fits content denotes)

namespace Session
variable {session : Session}

/-- The session with the mark that a new change sets on an open transaction. -/
def marked (session : Session) : Session := session.determineChangeTransactionBit.1

/-- The bit a new change gets. -/
def newTransactionBit (session : Session) : Bool := session.determineChangeTransactionBit.2

/-- The session after a new change has dropped the undone changes. -/
def freed (session : Session) : Session :=
  if session.top.changesUndone.isEmpty then session
  else session.withStack session.stack.freeChangesUndone

/-- The session after a new change has been recorded. -/
def recorded (session : Session) (change : Change) (segments : List ModelSegment)
    (viewports : List Viewport) : Session :=
  let session := session.freed.recordChange change segments
  { session.withStack session.stack.discardCheckpointFuture with viewports }

@[simp] lemma marked_stack : session.marked.stack = session.stack := by
  unfold marked determineChangeTransactionBit
  split <;> rfl

@[simp] lemma marked_top : session.marked.top = session.top := by
  simp [top]

@[simp] lemma marked_viewports : session.marked.viewports = session.viewports := by
  unfold marked determineChangeTransactionBit
  split <;> rfl

lemma freed_top : session.freed.top = session.top.freeChangesUndone := by
  unfold freed
  split
  · rename_i empty
    rw [List.isEmpty_iff] at empty
    rw [Model.freeChangesUndone, ← empty]
  · rfl

@[simp] lemma freed_viewports : session.freed.viewports = session.viewports := by
  unfold freed
  split <;> rfl

lemma determineChangeTransactionBit_eq :
    session.determineChangeTransactionBit = (session.marked, session.newTransactionBit) := rfl

lemma assignTransactionStartSerial_eq (change : Change) :
    ∃ start, session.assignTransactionStartSerial change = change.startingAt start := by
  unfold assignTransactionStartSerial
  split
  · exact ⟨change.transactionStartSerial, change.startingAt_self.symm⟩
  · exact ⟨_, rfl⟩

lemma update_new (new : 0 < change.serial) (inside : change.offset ≤ session.computedFileSize) :
    ∃ start, session.update change = (do
      match ← updateModel (change.startingAt start) session.top.modelSegments with
      | none => .ok ⟨session.freed, change.startingAt start, -1⟩
      | some segments =>
        let viewports ← updateViewports (change.startingAt start) session.viewports
        .ok ⟨session.recorded (change.startingAt start) segments viewports,
          change.startingAt start, change.serial⟩) := by
  have min : int64Min < 0 := by decide
  have positive : decide (change.serial < 0) = false := by simp; omega
  have freed : (if (!session.top.changesUndone.isEmpty) = true then
      session.withStack session.stack.freeChangesUndone else session) = session.freed := by
    unfold Session.freed
    cases session.top.changesUndone.isEmpty <;> rfl
  obtain ⟨start, assigned⟩ := session.freed.assignTransactionStartSerial_eq change
  refine ⟨start, ?_⟩
  rw [update, if_pos inside, if_neg (by omega)]
  simp only [positive, Bool.not_false, Bool.true_and, freed, Bool.false_eq_true, if_false, assigned,
    freed_top, ← session.freed_viewports]
  rfl

lemma update_undone (undone : change.serial < 0) (above : change.serial ≠ int64Min)
    (inside : change.offset ≤ session.computedFileSize) :
    ∃ start, session.update change = (do
      match ← updateModel (change.negate.startingAt start) session.top.modelSegments with
      | none => .ok ⟨session, change.startingAt start, -1⟩
      | some segments =>
        let viewports ← updateViewports (change.negate.startingAt start) session.viewports
        .ok ⟨{ session.recordChange (change.negate.startingAt start) segments with viewports },
          change.negate.startingAt start, -change.serial⟩) := by
  have negative : decide (change.serial < 0) = true := by simpa using undone
  obtain ⟨start, assigned⟩ := session.assignTransactionStartSerial_eq change.negate
  refine ⟨start, ?_⟩
  rw [update, if_pos inside, if_neg (by omega)]
  simp only [negative, Bool.not_true, Bool.false_and, Bool.false_eq_true, if_false, if_true,
    assigned]
  rfl

lemma update_new_cases (new : 0 < change.serial) (done : session.update change = .ok updated) :
    (change.offset > session.computedFileSize ∧ updated.session = session ∧ updated.result = -1) ∨
      (∃ start, updateModel (change.startingAt start) session.top.modelSegments = .ok none ∧
        change.offset ≤ session.computedFileSize ∧ updated.session = session.freed ∧
        updated.result = -1) ∨ ∃ start segments viewports,
        updateModel (change.startingAt start) session.top.modelSegments = .ok (some segments) ∧
        change.offset ≤ session.computedFileSize ∧
        updateViewports (change.startingAt start) session.viewports = .ok viewports ∧
        updated.session = session.recorded (change.startingAt start) segments viewports ∧
        updated.result = change.serial := by
  by_cases inside : change.offset ≤ session.computedFileSize
  · obtain ⟨start, updates⟩ := update_new new inside
    obtain ⟨result, applied, done⟩ := bind_eq_ok.mp (updates.symm.trans done)
    cases result with
    | none =>
      cases done
      exact .inr (.inl ⟨start, applied, inside, rfl, rfl⟩)
    | some segments =>
      obtain ⟨viewports, adjusted, done⟩ := bind_eq_ok.mp done
      cases done
      exact .inr (.inr ⟨start, segments, viewports, applied, inside, adjusted, rfl, rfl⟩)
  · rw [update, if_neg inside] at done
    cases done
    exact .inl ⟨by omega, rfl, rfl⟩

lemma update_undone_cases (undone : change.serial < 0) (done : session.update change = .ok updated) :
    (∃ start, updated.session = session ∧ updated.change = change.startingAt start ∧
        updated.result = -1) ∨ ∃ start segments viewports,
        updateModel (change.negate.startingAt start) session.top.modelSegments =
          .ok (some segments) ∧
        updateViewports (change.negate.startingAt start) session.viewports = .ok viewports ∧
        updated.session =
          { session.recordChange (change.negate.startingAt start) segments with viewports } ∧
        updated.result = -change.serial := by
  by_cases refused : session.computedFileSize < change.offset ∨ change.serial = int64Min
  · left
    refine ⟨change.transactionStartSerial, ?_⟩
    rw [change.startingAt_self]
    rw [update] at done
    split at done
    · rw [if_pos (.inr (by omega))] at done
      cases done
      exact ⟨rfl, rfl, rfl⟩
    · cases done
      exact ⟨rfl, rfl, rfl⟩
  · obtain ⟨start, updates⟩ := update_undone undone (fun least => refused (.inr least))
      (Int.not_lt.mp fun past : session.computedFileSize < _ => refused (.inl past))
    obtain ⟨result, applied, done⟩ := bind_eq_ok.mp (updates.symm.trans done)
    cases result with
    | none =>
      cases done
      exact .inl ⟨start, rfl, rfl, rfl⟩
    | some segments =>
      obtain ⟨viewports, adjusted, done⟩ := bind_eq_ok.mp done
      cases done
      exact .inr ⟨start, segments, viewports, applied, adjusted, rfl, rfl⟩

/-- The outcomes of a primitive edit. `describes` says which change was asked for. -/
inductive Edited (session : Session) (describes : Change → Prop) : Session → Int → Prop where
  | refused {result : Int} (answer : result = 0 ∨ result = -1) : Edited session describes session result
  | unbuilt : Edited session describes session.marked (-1)
  | dropped {change : Change} (new : NewChange session.top change)
      (failed : updateModel change session.top.modelSegments = .ok none) :
      Edited session describes session.marked.freed (-1)
  | recorded {change : Change} {segments : List ModelSegment} {viewports : List Viewport}
      (running : session.changesPaused = false) (new : NewChange session.top change)
      (bit : change.transactionBit = session.newTransactionBit) (described : describes change)
      (applied : updateModel change session.top.modelSegments = .ok (some segments))
      (adjusted : updateViewports change session.viewports = .ok viewports) :
      Edited session describes (session.marked.recorded change segments viewports) change.serial

lemma updateNew_cases (running : session.changesPaused = false) (new : NewChange session.top change)
    (bit : change.transactionBit = session.newTransactionBit)
    (described : ∀ start, describes (change.startingAt start))
    (done : session.marked.updateNew (some change) = .ok (next, result)) :
    Edited session describes next result := by
  obtain ⟨updated, applied, answer⟩ := bind_eq_ok.mp done
  cases answer
  rcases update_new_cases new.serial_pos applied with
    ⟨past, _, _⟩ | ⟨start, failed, _, same, answer⟩ |
    ⟨start, segments, viewports, done, _, adjusted, same, answer⟩
  · have offset := new.offset_le
    rw [computedFileSize, marked_top] at past
    omega
  · rw [same, answer]
    rw [marked_top] at failed
    exact .dropped (new.startingAt start) failed
  · rw [same, answer]
    rw [marked_top] at done
    rw [marked_viewports] at adjusted
    exact .recorded running (new.startingAt start) bit (described start) done adjusted

/-- How a primitive edit computes its outcome, up to the point where a change is applied. -/
inductive Attempt (session : Session) (describes : Change → Prop) :
    Except Fault (Session × Int) → Prop where
  | refused {result : Int} (answer : result = 0 ∨ result = -1) :
      Attempt session describes (.ok (session, result))
  | unbuilt : Attempt session describes (.ok (session.marked, -1))
  | unread {offset length : Int} {fault : Fault} (reached : 0 ≤ offset) (nonneg : 0 ≤ length)
      (inside : offset + length ≤ session.computedFileSize)
      (failed : session.captureSessionRangePayload offset length = .error fault) :
      Attempt session describes (.error fault)
  | built {change : Change} (running : session.changesPaused = false)
      (new : NewChange session.top change)
      (bit : change.transactionBit = session.newTransactionBit)
      (described : ∀ start, describes (change.startingAt start)) :
      Attempt session describes (session.marked.updateNew (some change))

/-- An edit that fails a test is refused. -/
lemma Attempt.unless {test : Prop} [Decidable test] (answer : result = 0 ∨ result = -1)
    (passed : ¬ test → Attempt session describes outcome) :
    Attempt session describes (if test then .ok (session, result) else outcome) := by
  split
  · exact .refused answer
  · next fails => exact passed fails

lemma Attempt.edited (attempt : Attempt session describes outcome)
    (done : outcome = .ok (next, result)) : Edited session describes next result := by
  cases attempt with
  | refused answer =>
    cases done
    exact .refused answer
  | unbuilt =>
    cases done
    exact .unbuilt
  | unread reached nonneg inside failed => cases done
  | built running new bit described => exact updateNew_cases running new bit described done

/-- Every range inside the content can be captured, and what is kept in memory is small. -/
lemma captureSessionRangePayload_eq {content : List Byte}
    (denotes : Denotes session.top.fileBytes session.top.modelSegments content)
    (reached : 0 ≤ offset) (nonneg : 0 ≤ length) (inside : offset + length ≤ content.length) :
    ∃ payload, session.captureSessionRangePayload offset length = .ok (some payload) ∧
      payload.bytes = slice content offset.toNat length.toNat ∧
      (payload.storage ≠ .fileBacked → (payload.bytes.length : Int) ≤ memoryBufferLimit) := by
  have sliced := length_slice_of_le
    (by omega : offset.toNat + length.toNat ≤ content.length)
  have whole : ((slice content offset.toNat length.toNat).length : Int) = length := by omega
  rw [captureSessionRangePayload, if_neg (by omega)]
  by_cases empty : length = 0
  · rw [if_pos empty]
    exact ⟨.empty, rfl, by simp [Payload.empty, empty], fun _ => by decide⟩
  rw [if_neg empty]
  by_cases inline : length ≤ min session.changeInlinePayloadLimit memoryBufferLimit
  · rw [if_pos inline, saveSegmentToBytes_eq denotes reached (by omega) inside (by omega)]
    have small : ((slice content offset.toNat length.toNat).length : Int) ≤
        memoryBufferLimit := by omega
    refine ⟨⟨.inline, slice content offset.toNat length.toNat⟩, ?_, rfl, fun _ => small⟩
    simp only [bind, Except.bind, if_pos whole]
  · rw [if_neg inline, streamRange_eq denotes reached nonneg inside]
    refine ⟨⟨.fileBacked, slice content offset.toNat length.toNat⟩, ?_, rfl,
      fun stored => absurd rfl stored⟩
    simp only [bind, Except.bind, if_pos whole]

/-- A captured payload is the slice of the content that the range covers. -/
lemma bytes_captured {content : List Byte}
    (denotes : Denotes session.top.fileBytes session.top.modelSegments content)
    (reached : 0 ≤ offset) (nonneg : 0 ≤ length) (inside : offset + length ≤ content.length)
    (captured : session.captureSessionRangePayload offset length = .ok (some payload)) :
    payload.bytes = slice content offset.toNat length.toNat := by
  obtain ⟨kept, done, bytes, _⟩ := captureSessionRangePayload_eq denotes reached nonneg inside
  cases captured.symm.trans done
  exact bytes

lemma nextChangeSerial_of_pos (positive : ¬ session.nextChangeSerial ≤ 0) :
    session.nextChangeSerial = session.top.numChanges + 1 ∧
      session.nextChangeSerial ≤ int64Max := by
  have same : session.numChanges = session.top.numChanges := rfl
  unfold nextChangeSerial at positive ⊢
  split at positive
  · rename_i below
    rw [if_pos below]
    omega
  · omega

section Unexhausted
variable (exhausted : ¬ session.nextChangeSerial ≤ 0)
include exhausted

/-- A change with the next serial, a range inside the content and the right payloads is new. -/
lemma newChange_of (serial : change.serial = session.nextChangeSerial)
    (primitive : change.kind ≠ .transform) (preserved : change.preservedChangesUndone = [])
    (shaped : change.Shaped) (offset_le : change.offset ≤ session.computedFileSize)
    (room : change.kind = .insert → session.computedFileSize + change.length ≤ int64Max)
    (payloads : ∀ content, Denotes session.top.fileBytes session.top.modelSegments content →
      session.computedFileSize = content.length → change.RangeFits content →
        change.PrimitiveFits content) : NewChange session.top change := by
  obtain ⟨next, bounded⟩ := nextChangeSerial_of_pos exhausted
  refine ⟨by omega, by omega, by omega, primitive, preserved, shaped, offset_le, room, ?_⟩
  intro content denotes
  have size := session.size_eq_length denotes
  rw [Change.fits_iff_of_ne primitive]
  exact payloads content denotes size
    ⟨by omega, shaped.offset_nonneg, by omega, shaped.positive, shaped.end_le⟩

lemma newChange_ins (range : 0 ≤ offset ∧ 0 ≤ length ∧ (0 < length → offset + length ≤ int64Max))
    (positive : 0 < length) (inside : offset ≤ session.computedFileSize)
    (room : session.computedFileSize + length ≤ int64Max)
    (built : ins session.nextChangeSerial offset (readMemory memory length) length
      session.newTransactionBit = some change) : NewChange session.top change := by
  have made := ins_eq_some built
  refine newChange_of exhausted ?_ ?_ ?_ ⟨?_, ?_, ?_⟩ ?_ ?_ ?_
  all_goals rw [made]
  · rfl
  · simp
  · rfl
  · exact range.1
  · exact positive
  · exact range.2.2 positive
  · exact inside
  · exact fun _ => room
  · intro content denotes size rangeFits
    refine ⟨rangeFits, ⟨?_, by simp⟩, ?_⟩
    · rw [length_readMemory]
      exact Int.toNat_of_nonneg range.2.1
    · rw [size] at room
      exact room

lemma newChange_del (reached : 0 ≤ offset) (positive : 0 < length)
    (range : offset + length ≤ int64Max) (inside : offset + length ≤ session.computedFileSize)
    (captured : session.captureSessionRangePayload offset length = .ok (some deleted))
    (built : del session.nextChangeSerial offset length deleted session.newTransactionBit =
      some change) : NewChange session.top change := by
  obtain ⟨storage, stored, _, made⟩ := del_eq_some built
  refine newChange_of exhausted ?_ ?_ ?_ ⟨?_, ?_, ?_⟩ ?_ ?_ ?_
  all_goals rw [made]
  · rfl
  · simp [delRange]
  · rfl
  · exact reached
  · exact positive
  · exact range
  · exact (by omega : offset ≤ session.computedFileSize)
  · simp [delRange]
  · intro content denotes size rangeFits
    rw [size] at inside
    have bytes := bytes_captured denotes reached (Int.le_of_lt positive) inside captured
    exact ⟨rangeFits, inside, bytes, stored⟩

lemma newChange_ovr (range : 0 ≤ offset ∧ 0 ≤ length ∧ (0 < length → offset + length ≤ int64Max))
    (positive : 0 < length) (inside : offset ≤ session.computedFileSize)
    (captured : session.captureSessionRangePayload offset
      (min length (session.computedFileSize - offset)) = .ok (some replaced))
    (built : ovr session.nextChangeSerial offset (readMemory memory length) length replaced
      session.newTransactionBit = some change) : NewChange session.top change := by
  obtain ⟨storage, stored, made⟩ := ovr_eq_some built
  refine newChange_of exhausted ?_ ?_ ?_ ⟨?_, ?_, ?_⟩ ?_ ?_ ?_
  all_goals rw [made]
  · rfl
  · simp
  · rfl
  · exact range.1
  · exact positive
  · exact range.2.2 positive
  · exact inside
  · simp
  · intro content denotes size rangeFits
    have bytes := bytes_captured denotes range.1 (by omega) (by omega) captured
    refine ⟨rangeFits, ⟨?_, by simp⟩, ?_, stored⟩
    · rw [length_readMemory]
      exact Int.toNat_of_nonneg range.2.1
    · show replaced.bytes = slice content offset.toNat length.toNat
      have clipped : (min length (session.computedFileSize - offset)).toNat =
          min length.toNat (content.length - offset.toNat) := by omega
      rw [bytes, clipped, slice_clip]

end Unexhausted

/-- What an insert asks for. -/
def DescribesInsert (offset : Int) (bytes : BytesPointer) (length : Int) (change : Change) : Prop :=
  change.kind = .insert ∧ change.offset = offset ∧ change.length = length ∧
    ∃ memory, bytes = some memory ∧ change.data.bytes = readMemory memory length

lemma insertBytes_attempt (session : Session) (offset : Int) (bytes : BytesPointer) (length : Int) :
    Attempt session (DescribesInsert offset bytes length)
      (session.insertBytes offset bytes length) := by
  unfold insertBytes
  refine .unless (.inr rfl) fun range => ?_
  rw [Bool.not_eq_false, validNonnegativeRange_iff] at range
  refine .unless (.inl rfl) fun empty => ?_
  have positive : 0 < length := by omega
  cases bytes with
  | none =>
    exact .refused (.inr rfl)
  | some memory =>
    dsimp only
    refine .unless (.inr rfl) fun noSize => ?_
    refine .unless (.inr rfl) fun overflow => ?_
    rw [Bool.not_eq_true, addOverflows_eq_false_iff] at overflow
    refine .unless (.inr rfl) fun exhausted => ?_
    by_cases inside : session.changesPaused = false ∧ offset ≤ session.computedFileSize
    · rw [if_pos inside, determineChangeTransactionBit_eq]
      dsimp only
      cases built : ins session.nextChangeSerial offset (readMemory memory length) length
          session.newTransactionBit with
      | none =>
        exact .unbuilt
      | some change =>
        refine .built inside.1 (newChange_ins exhausted range positive inside.2 (overflow.1 positive) built) ?_ ?_
        all_goals rw [ins_eq_some built]
        · rfl
        · exact fun start => ⟨rfl, rfl, rfl, memory, rfl, rfl⟩
    · rw [if_neg inside]
      exact .refused (.inl rfl)

/-- What a delete asks for: the part of its range that lies inside the content. -/
def DescribesDelete (size offset length : Int) (change : Change) : Prop :=
  change.kind = .delete ∧ change.offset = offset ∧ change.length = min length (size - offset)

lemma delete_attempt (session : Session) (offset length : Int) :
    Attempt session (DescribesDelete session.computedFileSize offset length)
      (session.delete offset length) := by
  unfold delete
  refine .unless (.inr rfl) fun range => ?_
  rw [Bool.not_eq_false, validNonnegativeRange_iff] at range
  refine .unless (.inl rfl) fun empty => ?_
  dsimp only
  refine .unless (.inr rfl) fun noSize => ?_
  refine .unless (.inr rfl) fun exhausted => ?_
  refine .unless (.inl rfl) fun outside => ?_
  cases capture : session.captureSessionRangePayload offset
      (min length (session.computedFileSize - offset)) with
  | error fault => exact .unread range.1 (by omega) (by omega) capture
  | ok captured =>
  cases captured with
  | none => exact .refused (.inr rfl)
  | some deleted =>
    simp only [bind, Except.bind, determineChangeTransactionBit_eq]
    cases built : del session.nextChangeSerial offset
        (min length (session.computedFileSize - offset)) deleted session.newTransactionBit with
    | none => exact .unbuilt
    | some change =>
      refine .built (by simpa using fun paused => outside (.inl paused))
        (newChange_del exhausted range.1 (by omega) (by omega) (by omega) capture built) ?_ ?_
      all_goals
        obtain ⟨storage, _, _, made⟩ := del_eq_some built
        rw [made]
      · rfl
      · exact fun start => ⟨rfl, rfl, rfl⟩

/-- What an overwrite asks for. -/
def DescribesOverwrite (offset : Int) (bytes : BytesPointer) (length : Int) (change : Change) :
    Prop :=
  change.kind = .overwrite ∧ change.offset = offset ∧ change.length = length ∧
    ∃ memory, bytes = some memory ∧ change.data.bytes = readMemory memory length

lemma overwriteBytes_attempt (session : Session) (offset : Int) (bytes : BytesPointer)
    (length : Int) :
    Attempt session (DescribesOverwrite offset bytes length)
      (session.overwriteBytes offset bytes length) := by
  unfold overwriteBytes
  refine .unless (.inr rfl) fun range => ?_
  rw [Bool.not_eq_false, validNonnegativeRange_iff] at range
  refine .unless (.inl rfl) fun empty => ?_
  have positive : 0 < length := by omega
  cases bytes with
  | none =>
    exact .refused (.inr rfl)
  | some memory =>
    dsimp only
    refine .unless (.inr rfl) fun noSize => ?_
    refine .unless (.inr rfl) fun exhausted => ?_
    refine .unless (.inl rfl) fun outside => ?_
    have replacedLength : (if offset < session.computedFileSize
        then min length (session.computedFileSize - offset) else 0) =
        min length (session.computedFileSize - offset) := by
      split <;> omega
    rw [replacedLength]
    cases capture : session.captureSessionRangePayload offset
        (min length (session.computedFileSize - offset)) with
    | error fault => exact .unread range.1 (by omega) (by omega) capture
    | ok captured =>
    cases captured with
    | none => exact .refused (.inr rfl)
    | some replaced =>
      simp only [bind, Except.bind, determineChangeTransactionBit_eq]
      cases built : ovr session.nextChangeSerial offset (readMemory memory length) length replaced
          session.newTransactionBit with
      | none => exact .unbuilt
      | some change =>
        refine .built (by simpa using fun paused => outside (.inl paused))
          (newChange_ovr exhausted range positive (by omega) capture built) ?_ ?_
        all_goals
          obtain ⟨storage, _, made⟩ := ovr_eq_some built
          rw [made]
        · rfl
        · exact fun start => ⟨rfl, rfl, rfl, memory, rfl, rfl⟩

end Session

end OmegaEdit
