import OmegaEdit.Signs

/-! Undo and redo of one transaction on the top model. On a sound model both
succeed: undo takes the trailing run of equal bits back to what precedes it, and
redo applies the leading run of the undone changes again. -/
namespace OmegaEdit
variable {model : Model} {change : Change} {rest pending : List Change} {start : Int}
  {segments : List ModelSegment} {viewports : List Viewport} {next : Session}

/-- A change up to how its payloads are stored and where its transaction starts. -/
def Change.plain (change : Change) : Change :=
  { change with
    transactionStartSerial := 0
    data := ⟨.none, change.data.bytes⟩
    inverseData := ⟨.none, change.inverseData.bytes⟩ }

lemma replay_map_plain (changes : List Change) (content : List Byte) :
    replay (changes.map Change.plain) content = replay changes content := by
  induction changes generalizing content with
  | nil => rfl
  | cons change rest ih =>
    rw [List.map_cons, replay_cons, replay_cons, ih]
    rfl

lemma map_negate_map_negate (changes : List Change) :
    (changes.map Change.negate).map Change.negate = changes := by
  simp [Function.comp_def]

/-- The model after its last transaction has been undone. -/
def Model.undoneLast (model : Model) (segments : List ModelSegment) : Model :=
  { model with
    changes := beforeLastTransaction model.changes
    changesUndone := (lastTransaction model.changes).map Change.negate ++ model.changesUndone
    modelSegments := segments
    modelSnapshots := model.modelSnapshots.upTo (beforeLastTransaction model.changes).length }

lemma beforeLastTransaction_append (changes : List Change) :
    beforeLastTransaction changes ++ lastTransaction changes = changes :=
  (Runs.trailingRun_spec Change.transactionBit changes).1

lemma lastTransaction_subset (changes : List Change) : lastTransaction changes ⊆ changes := by
  intro change mem
  rw [← beforeLastTransaction_append changes]
  exact List.mem_append_right _ mem

lemma beforeLastTransaction_eq_take (changes : List Change) :
    beforeLastTransaction changes = changes.take (beforeLastTransaction changes).length := by
  have parts := beforeLastTransaction_append changes
  generalize beforeLastTransaction changes = before at parts ⊢
  rw [← parts, List.take_left]

lemma lastTransaction_eq_drop (changes : List Change) :
    lastTransaction changes = changes.drop (beforeLastTransaction changes).length := by
  have parts := beforeLastTransaction_append changes
  generalize beforeLastTransaction changes = before at parts ⊢
  generalize lastTransaction changes = last at parts ⊢
  rw [← parts, List.drop_left]

lemma updateViewportsAll_isOk {changes : List Change}
    (primitive : ∀ change ∈ changes, change.kind ≠ .transform) (viewports : List Viewport) :
    ∃ adjusted, updateViewportsAll changes viewports = .ok adjusted := by
  induction changes generalizing viewports with
  | nil => exact ⟨viewports, rfl⟩
  | cons change rest ih =>
    obtain ⟨middle, first⟩ := updateViewports_isOk (primitive change (by simp)) viewports
    obtain ⟨adjusted, later⟩ := ih (fun other mem => primitive other (by simp [mem])) middle
    exact ⟨adjusted, by simp only [updateViewportsAll, first, later, bind, Except.bind]⟩

lemma Model.Signed.undoneLast (signed : model.Signed) (segments : List ModelSegment) :
    (model.undoneLast segments).Signed := by
  refine ⟨?_, signed.moved (lastTransaction_subset model.changes)⟩
  intro change mem
  refine signed.active change ?_
  rw [← beforeLastTransaction_append model.changes]
  exact List.mem_append_left _ mem

lemma Model.Signed.redone {snapshots : Snapshots} (signed : model.Signed)
    (undone : model.changesUndone = change :: rest) :
    (model.recorded (change.negate.startingAt start) rest segments snapshots).Signed := by
  have retained := signed.undone
  rw [undone] at retained
  obtain ⟨first, later⟩ := List.forall_mem_cons.mp retained
  exact signed.recorded (first.negate.startingAt start) later

/-- The segments denote what precedes the last transaction once it is undone. -/
lemma Model.Sound.undoneLast (sound : model.Sound)
    (primitive : ∀ change ∈ lastTransaction model.changes, change.kind ≠ .transform) :
    ∃ segments, undoChangesInModel (lastTransaction model.changes).reverse model.modelSegments =
        .ok (some segments) ∧ (model.undoneLast segments).Sound := by
  have fits := sound.fits_changes
  rw [← beforeLastTransaction_append model.changes] at fits
  obtain ⟨beforeFits, lastFits⟩ := fitsAll_append.mp fits
  have denotes := sound.denotes
  rw [← beforeLastTransaction_append model.changes, replay_append] at denotes
  obtain ⟨segments, undone, restored⟩ := Denotes.undoChangesInModel denotes lastFits primitive
    (length_replay_le beforeFits sound.small)
  refine ⟨segments, undone, ?_⟩
  have moved := sound.fits_moved (beforeLastTransaction model.changes).length
  have le : (beforeLastTransaction model.changes).length ≤ model.changes.length := by
    have length := congrArg List.length (beforeLastTransaction_append model.changes)
    rw [List.length_append] at length
    omega
  have trimmed := fun snapshot (mem : snapshot ∈
    model.modelSnapshots.upTo (beforeLastTransaction model.changes).length) => Snapshots.mem_upTo mem
  rw [← lastTransaction_eq_drop] at moved
  rw [beforeLastTransaction_eq_take] at restored
  have cut := sound.cut le moved restored trimmed
  rw [← beforeLastTransaction_eq_take] at cut
  exact cut

namespace Session
variable {session : Session}

/-- What undo returns for the last transaction of a change list. -/
def undoAnswer (changes : List Change) : Int :=
  (((lastTransaction changes).map Change.negate).head?.map Change.serial).getD 0

/-- What redo returns for a list of undone changes. -/
def redoAnswer (undone : List Change) : Int :=
  ((Runs.leadingRun Change.transactionBit undone).getLast?.map (fun last => -last.serial)).getD 0

lemma undoTransaction_eq (suspended : Nat) (sound : session.top.Sound) (signed : session.top.Signed)
    (primitive : ∀ change ∈ lastTransaction session.top.changes, change.kind ≠ .transform) :
    ∃ segments viewports, session.undoTransaction suspended =
        .ok ({ session.withTop (session.top.undoneLast segments) with viewports },
          (((lastTransaction session.top.changes).map Change.negate).head?.map
            Change.serial).getD 0) ∧ (session.top.undoneLast segments).Sound := by
  obtain ⟨segments, undone, after⟩ := sound.undoneLast primitive
  have positive : (lastTransaction session.top.changes).any
      (fun change => decide (change.serial ≤ 0)) = false := by
    rw [List.any_eq_false]
    intro change mem
    have active := (signed.active change (lastTransaction_subset _ mem)).positive
    simpa using active
  have kinds : ∀ change ∈ ((lastTransaction session.top.changes).map Change.negate).reverse,
      change.kind ≠ .transform := by
    intro change mem
    obtain ⟨original, originalMem, rfl⟩ := List.mem_map.mp (List.mem_reverse.mp mem)
    exact primitive original originalMem
  obtain ⟨viewports, adjusted⟩ := updateViewportsAll_isOk kinds session.viewports
  refine ⟨segments, viewports, ?_, after⟩
  simp only [undoTransaction, positive, undone, adjusted, bind, Except.bind, Bool.false_eq_true,
    if_false]
  rfl

/-- The session after one undone change has been applied again. -/
def redone (session : Session) (change : Change) (rest : List Change)
    (segments : List ModelSegment) (viewports : List Viewport) : Session :=
  { session.withTop
      (session.top.recorded change rest segments (session.newSnapshots segments)) with viewports }

lemma recordChange_eq (change : Change) (segments : List ModelSegment) :
    session.recordChange change segments = session.withTop { session.top with
        changes := session.top.changes ++ [change]
        modelSegments := segments
        modelSnapshots := session.newSnapshots segments } := by
  simp only [recordChange, newSnapshots, List.length_append, List.length_singleton]

/-- One round of the redo loop, once its change has been applied. -/
lemma redoTransaction_of_applied {applied : Change} {updated : Updated}
    (undone : session.top.changesUndone = change :: pending)
    (done : session.update change = .ok updated)
    (same : updated.session = { session.recordChange applied segments with viewports })
    (nonneg : 0 ≤ updated.result) :
    redoTransaction (change :: pending) session = match pending with
      | [] => .ok (session.redone applied pending segments viewports, updated.result)
      | following :: _ =>
        if change.transactionBit = following.transactionBit then
          redoTransaction pending (session.redone applied pending segments viewports)
        else .ok (session.redone applied pending segments viewports, updated.result) := by
  have popped : updated.session.popUndone =
      .ok (session.redone applied pending segments viewports) := by
    rw [same, recordChange_eq]
    simp only [popUndone, withTop, Session.top]
    rw [Session.top] at undone
    rw [undone]
    rfl
  rw [redoTransaction, done]
  simp only [bind, Except.bind]
  rw [if_neg (by omega), popped]
  cases pending with
  | nil => rfl
  | cons following rest => rfl

lemma redoTransaction_cases {result : Int} (undone : session.top.changesUndone = change :: pending)
    (negative : change.serial < 0)
    (done : redoTransaction (change :: pending) session = .ok (next, result)) :
    (∃ start, next = session.withTop { session.top with
        changesUndone := change.startingAt start :: pending } ∧ result = -1) ∨
      ∃ start segments viewports,
        updateModel (change.negate.startingAt start) session.top.modelSegments =
          .ok (some segments) ∧
        updateViewports (change.negate.startingAt start) session.viewports = .ok viewports ∧
        ((∃ following ∈ pending.head?, change.transactionBit = following.transactionBit ∧
            redoTransaction pending (session.redone (change.negate.startingAt start) pending
              segments viewports) = .ok (next, result)) ∨
          ((∀ following ∈ pending.head?, change.transactionBit ≠ following.transactionBit) ∧
            next = session.redone (change.negate.startingAt start) pending segments viewports ∧
            result = -change.serial)) := by
  cases applied : session.update change with
  | error fault =>
    rw [redoTransaction, applied] at done
    cases done
  | ok updated =>
    rcases update_undone_cases negative applied with
      ⟨start, same, pointer, answer⟩ |
      ⟨start, segments, viewports, edited, adjusted, same, answer⟩
    · rw [redoTransaction, applied] at done
      simp only [bind, Except.bind] at done
      rw [if_pos (by omega), same, pointer, answer] at done
      cases done
      exact .inl ⟨start, rfl, rfl⟩
    · refine .inr ⟨start, segments, viewports, edited, adjusted, ?_⟩
      rw [redoTransaction_of_applied undone applied same (by omega)] at done
      cases pending with
      | nil =>
        cases done
        exact .inr ⟨by simp, rfl, answer⟩
      | cons following rest =>
        dsimp only at done
        by_cases bits : change.transactionBit = following.transactionBit
        · rw [if_pos bits] at done
          exact .inl ⟨following, rfl, bits, done⟩
        · rw [if_neg bits] at done
          cases done
          exact .inr ⟨by simpa using bits, rfl, answer⟩

/-- The session with another top model and other viewports. -/
def SameButTop (session next : Session) : Prop :=
  ∃ viewports, next = { session.withTop next.top with viewports }

lemma SameButTop.trans {session middle : Session} (first : session.SameButTop middle)
    (second : middle.SameButTop next) : session.SameButTop next := by
  obtain ⟨_, middleEq⟩ := first
  obtain ⟨viewports, nextEq⟩ := second
  refine ⟨viewports, ?_⟩
  rw [middleEq] at nextEq
  exact nextEq

lemma sameButTop_redone (change : Change) (rest : List Change) (segments : List ModelSegment)
    (viewports : List Viewport) :
    session.SameButTop (session.redone change rest segments viewports) :=
  ⟨viewports, rfl⟩

lemma redone_sound (sound : session.top.Sound) (undone : session.top.changesUndone = change :: rest)
    (primitive : change.kind ≠ .transform)
    (applied : updateModel (change.negate.startingAt start) session.top.modelSegments =
      .ok (some segments)) :
    (session.redone (change.negate.startingAt start) rest segments viewports).top.Sound := by
  have fits := sound.fits_undone
  rw [undone] at fits
  obtain ⟨changeFits, restFits⟩ := fitsAll_cons.mp fits
  have signedFits : (change.negate.startingAt start).Fits
      (replay session.top.changes session.top.fileBytes) :=
    (Change.fits_startingAt start).mpr (Change.fits_negate.mpr changeFits)
  exact sound.record (fitsAll_cons.mpr ⟨signedFits, restFits⟩) primitive applied
    (session.snapshotsTaken_newSnapshots segments)

lemma redone_signed (signed : session.top.Signed)
    (undone : session.top.changesUndone = change :: rest) :
    (session.redone (change.negate.startingAt start) rest segments viewports).top.Signed :=
  signed.redone undone

lemma update_undone_eq (sound : session.top.Sound) (signed : session.top.Signed)
    (undone : session.top.changesUndone = change :: rest) (primitive : change.kind ≠ .transform) :
    ∃ start segments viewports updated, session.update change = .ok updated ∧
      updateModel (change.negate.startingAt start) session.top.modelSegments = .ok (some segments) ∧
      updated.session =
        { session.recordChange (change.negate.startingAt start) segments with viewports } ∧
      updated.result = -change.serial := by
  have retained := signed.undone change (by rw [undone]; simp)
  have fits := sound.fits_undone
  rw [undone] at fits
  have changeFits := (fitsAll_cons.mp fits).1
  have size := session.size_eq_length sound.denotes
  have inside := ((Change.fits_iff_of_ne primitive).mp changeFits).1.offset_le
  have above := (Change.retained_iff.mp retained).1
  obtain ⟨start, updates⟩ := update_undone retained.negative (by omega)
    (by omega : change.offset ≤ session.computedFileSize)
  obtain ⟨segments, applied, _⟩ := Denotes.updateModel sound.denotes
    ((Change.fits_startingAt start).mpr (Change.fits_negate.mpr changeFits))
  obtain ⟨viewports, adjusted⟩ := updateViewports_isOk
    (show (change.negate.startingAt start).kind ≠ _ from primitive) session.viewports
  simp only [applied, adjusted, bind, Except.bind] at updates
  exact ⟨start, segments, viewports, _, updates, applied, rfl, rfl⟩

/-- What redoing the run `run` in front of `rest` leaves. -/
structure Redone (session next : Session) (run rest : List Change) (result : Int) : Prop where
  sound : next.top.Sound
  signed : next.top.Signed
  frame : session.SameButTop next
  file : next.top.file = session.top.file
  base : next.top.changeSerialBase = session.top.changeSerialBase
  changes : next.top.changes.map Change.plain =
    session.top.changes.map Change.plain ++ run.map (fun change => change.negate.plain)
  undone : next.top.changesUndone = rest
  answer : ∀ last ∈ run.getLast?, result = -last.serial

lemma redoTransaction_eq (sound : session.top.Sound) (signed : session.top.Signed)
    (undone : session.top.changesUndone = pending)
    (primitive : ∀ change ∈ Runs.leadingRun Change.transactionBit pending,
      change.kind ≠ .transform) (nonempty : pending ≠ []) :
    ∃ next result, redoTransaction pending session = .ok (next, result) ∧
      session.Redone next (Runs.leadingRun Change.transactionBit pending)
        (pending.drop (Runs.leadingRun Change.transactionBit pending).length) result := by
  induction pending generalizing session with
  | nil => exact absurd rfl nonempty
  | cons change rest ih =>
    have kind : change.kind ≠ .transform := primitive change (by simp [Runs.leadingRun])
    obtain ⟨start, segments, viewports, updated, done, edited, same, answer⟩ :=
      update_undone_eq sound signed undone kind
    have negative := (signed.undone change (by rw [undone]; simp)).negative
    have sound' : (session.redone (change.negate.startingAt start) rest segments
      viewports).top.Sound := redone_sound sound undone kind edited
    have signed' : (session.redone (change.negate.startingAt start) rest segments
      viewports).top.Signed := redone_signed signed undone
    have stop : session.Redone (session.redone (change.negate.startingAt start) rest segments
        viewports) [change] rest updated.result := by
      refine ⟨sound', signed', sameButTop_redone _ _ _ _, rfl, rfl, List.map_append, rfl, ?_⟩
      intro last mem
      cases mem
      exact answer
    rw [redoTransaction_of_applied undone done same (by omega)]
    cases rest with
    | nil => exact ⟨_, _, rfl, stop⟩
    | cons following later =>
      dsimp only
      by_cases bits : change.transactionBit = following.transactionBit
      · rw [if_pos bits]
        rw [Runs.leadingRun_cons_of_eq later bits] at primitive ⊢
        obtain ⟨next, result, redo, redone⟩ := ih sound' signed' rfl
          (fun other mem => primitive other (List.mem_cons_of_mem change mem)) (by simp)
        refine ⟨next, result, redo, redone.sound, redone.signed,
          (sameButTop_redone _ _ _ _).trans redone.frame, redone.file, redone.base, ?_,
          redone.undone, ?_⟩
        · rw [redone.changes]
          show (session.top.changes ++ [_]).map Change.plain ++ _ = _
          rw [List.map_append, List.append_assoc]
          rfl
        · intro last mem
          refine redone.answer last ?_
          rw [Runs.leadingRun, List.getLast?_cons_cons] at mem
          exact mem
      · rw [if_neg bits]
        have run : Runs.leadingRun Change.transactionBit (change :: following :: later) =
            [change] := by
          simp [Runs.leadingRun, Ne.symm bits]
        rw [run]
        exact ⟨_, _, rfl, stop⟩

end Session

end OmegaEdit
