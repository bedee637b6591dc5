import OmegaEdit.Client.Navigation

/-! The dirty flag of an editor. The saved state is kept as a depth, so the flag is right as
long as the saved transactions stand on the line of active and undone ones: then the depth
names them. -/
namespace OmegaEdit.EditorHistory

def identities (log : List Transaction) : List Nat := log.map Transaction.identity

/-- A controller, and the transactions that were active when the state was last known to be saved. -/
structure Tracked where
  history : Controller
  saved : List Nat

def Tracked.initial : Tracked := ⟨.initial, []⟩

/-- A call that does not throw. Marking the state as saved, and a reconcile that reports it as saved,
note the active transactions. -/
def Tracked.step (state : Tracked) (call : Call) : Except HistoryError (Tracked × Bool) :=
  match state.history.call call with
  | (_, .error error) => .error error
  | (next, .ok answer) =>
    let saved :=
      match call with
      | .markSaved => identities next.transactionLog
      | .reconcile _ _ true => identities next.transactionLog
      | _ => state.saved
    .ok (⟨next, saved⟩, answer)

/-- The flag is off exactly where the active transactions are those that were saved. -/
def Tracked.Sound (state : Tracked) : Prop :=
  state.history.getEditState.isDirty = false ↔ identities state.history.transactionLog = state.saved

/-- The saved transactions are not among the undone ones that a new transaction discards, and a
reconcile that rebuilds the stacks reports a saved state or finds the empty one saved. -/
def Keeps (history : Controller) : Call → Prop
  | .recordLocalChanges changes =>
    changes = [] ∨ history.savedChangeDepth ≤ history.transactionLog.length
  | .recordLocalMutation => history.savedChangeDepth ≤ history.transactionLog.length
  | .recordLocalReplaceAll offsets _ _ =>
    offsets = [] ∨ history.savedChangeDepth ≤ history.transactionLog.length
  | .recordCheckpointReplaceAll _ => history.savedChangeDepth ≤ history.transactionLog.length
  | .reconcile active undone saved =>
    if history.diverges active.toNat undone.toNat then saved = true ∨ history.savedChangeDepth = 0
    else saved = true → history.getEditState.isDirty = false
  | _ => True

/-- The active transactions, and the undone ones in the order in which they are redone. -/
def timeline (history : Controller) : List Nat :=
  identities (history.transactionLog ++ history.undoneTransactionLog.reverse)

/-- The saved transactions are the first ones of the line. -/
structure Tracked.OnLine (state : Tracked) : Prop where
  within : state.history.savedChangeDepth ≤ (timeline state.history).length
  saved : state.saved = (timeline state.history).take state.history.savedChangeDepth

section Lines
variable {history : Controller}

lemma timeline_eq (history : Controller) :
    timeline history =
      identities history.transactionLog ++ identities history.undoneTransactionLog.reverse :=
  List.map_append

lemma length_identities (log : List Transaction) : (identities log).length = log.length :=
  List.length_map _

lemma active_eq_take (history : Controller) :
    identities history.transactionLog = (timeline history).take history.transactionLog.length := by
  rw [timeline_eq, ← length_identities history.transactionLog, List.take_left]

lemma isDirty_eq_false :
    history.getEditState.isDirty = false ↔
      history.transactionLog.length = history.savedChangeDepth := by
  simp [Controller.getEditState]

/-- On the line the depth tells the saved transactions. -/
theorem Tracked.OnLine.sound {state : Tracked} (onLine : state.OnLine) : state.Sound := by
  rw [Tracked.Sound, isDirty_eq_false]
  constructor
  · intro same
    rw [active_eq_take, same, onLine.saved]
  · intro same
    have lengths := congrArg List.length same
    rw [length_identities, onLine.saved, List.length_take, Nat.min_eq_left onLine.within] at lengths
    exact lengths

/-- The line that a state stands on decides what is saved. -/
lemma Tracked.OnLine.of_timeline {state next : Tracked} (onLine : state.OnLine)
    (same : timeline next.history = timeline state.history)
    (depth : next.history.savedChangeDepth = state.history.savedChangeDepth)
    (saved : next.saved = state.saved) : next.OnLine := by
  constructor
  · rw [same, depth]
    exact onLine.within
  · rw [saved, same, depth]
    exact onLine.saved

lemma onLine_of_active {state : Tracked}
    (depth : state.history.savedChangeDepth = state.history.transactionLog.length)
    (saved : state.saved = identities state.history.transactionLog) : state.OnLine := by
  constructor
  · rw [depth, timeline_eq, List.length_append, length_identities]
    omega
  · rw [saved, depth, active_eq_take]

lemma timeline_push (record : TransactionRecord) :
    timeline (history.discardRedoBranch.push record) =
      identities history.transactionLog ++ [history.allocated] := by
  simp [timeline, identities, Controller.push, Controller.discardRedoBranch]

/-- A transaction that follows the saved ones leaves them where they are. -/
lemma Tracked.OnLine.push {state : Tracked} {history : Controller} {record : TransactionRecord}
    (onLine : state.OnLine)
    (behind : state.history.savedChangeDepth ≤ state.history.transactionLog.length)
    (line : timeline history = timeline (state.history.discardRedoBranch.push record))
    (depth : history.savedChangeDepth = state.history.discardRedoBranch.savedChangeDepth) :
    Tracked.OnLine ⟨history, state.saved⟩ := by
  have lower : state.history.discardRedoBranch.savedChangeDepth = state.history.savedChangeDepth :=
    Nat.min_eq_left behind
  have first : state.history.savedChangeDepth ≤ (identities state.history.transactionLog).length := by
    rw [length_identities]
    exact behind
  constructor
  · rw [line, depth, lower, timeline_push, List.length_append]
    omega
  · rw [line, depth, lower, timeline_push, List.take_append_of_le_length first, onLine.saved,
      timeline_eq, List.take_append_of_le_length first]

lemma timeline_moveToUndone {transaction : Transaction}
    (last : history.transactionLog.getLast? = some transaction) :
    timeline (history.moveToUndone transaction) = timeline history := by
  exact congrArg identities (Controller.line_moveToUndone last)

lemma timeline_moveToActive {transaction : Transaction}
    (last : history.undoneTransactionLog.getLast? = some transaction) :
    timeline (history.moveToActive transaction) = timeline history := by
  exact congrArg identities (Controller.line_moveToActive last)

end Lines

section Steps
variable {state next : Tracked} {answer : Bool}

lemma step_call {call : Call} (stepped : state.step call = .ok (next, answer))
    (unmarked : call ≠ .markSaved) (unreported : ∀ active undone, call ≠ .reconcile active undone true) :
    next.history = (state.history.call call).1 ∧ next.saved = state.saved := by
  rw [Tracked.step] at stepped
  split at stepped
  · cases stepped
  · rename_i called
    cases stepped
    refine ⟨by rw [called], ?_⟩
    dsimp only
    split
    · exact absurd rfl unmarked
    · exact absurd rfl (unreported _ _)
    · rfl

lemma step_reconcile {active undone : Int} {saved : Bool}
    (stepped : state.step (.reconcile active undone saved) = .ok (next, answer)) :
    next.history = (if state.history.diverges active.toNat undone.toNat then
          state.history.rebuild active.toNat undone.toNat saved else state.history) ∧
      next.saved = if saved then identities next.history.transactionLog else state.saved := by
  simp only [Tracked.step, Controller.call, Controller.reconcileNativeTransactionCounts] at stepped
  cases counts : !Controller.isCount active || !Controller.isCount undone with
  | true =>
    simp only [counts, if_true] at stepped
    cases stepped
  | false =>
    simp only [counts] at stepped
    cases diverges : state.history.diverges active.toNat undone.toNat with
    | true | false =>
      simp only [diverges] at stepped
      cases saved <;> cases stepped <;> exact ⟨rfl, rfl⟩

lemma recordLocalChanges_line (history : Controller) {changes : List ChangeRecord} (some : changes ≠ []) :
    timeline (history.recordLocalChanges changes) =
        timeline (history.discardRedoBranch.push (.tracked changes.length)) ∧
      (history.recordLocalChanges changes).savedChangeDepth =
        history.discardRedoBranch.savedChangeDepth := by
  rw [Controller.recordLocalChanges, if_neg (by simpa using some)]
  exact ⟨rfl, rfl⟩

lemma recordLocalReplaceAll_line (history : Controller) {offsets : List Nat} (length : Nat)
    (data : Utf16.Text) (some : offsets ≠ []) :
    timeline (history.recordLocalReplaceAll offsets length data) =
        timeline (history.discardRedoBranch.push (.tracked offsets.length)) ∧
      (history.recordLocalReplaceAll offsets length data).savedChangeDepth =
        history.discardRedoBranch.savedChangeDepth := by
  rw [Controller.recordLocalReplaceAll, if_neg (by simpa using some)]
  have changes : (offsets.mapIdx fun index offset => (⟨index + 1, .replace, offset, length, data,
      Option.some ("replace-all-" ++ toString history.nextSyntheticGroupId)⟩ : ChangeRecord)) ≠ [] := by
    simpa using some
  obtain ⟨line, depth⟩ := recordLocalChanges_line
    { history with nextSyntheticGroupId := history.nextSyntheticGroupId + 1 } changes
  refine ⟨line.trans ?_, depth.trans rfl⟩
  rw [timeline_push, timeline_push]

/-- The saved transactions stay on the line under every call that keeps them. -/
theorem Tracked.OnLine.step {call : Call} (onLine : state.OnLine) (keeps : Keeps state.history call)
    (stepped : state.step call = .ok (next, answer)) : next.OnLine := by
  cases call with
  | recordLocalChanges changes =>
    cases stepped
    by_cases none : changes = []
    · subst none
      exact onLine
    · obtain ⟨line, depth⟩ := recordLocalChanges_line state.history none
      exact onLine.push (keeps.resolve_left none) line depth
  | recordLocalMutation =>
    cases stepped
    exact onLine.push keeps rfl rfl
  | recordLocalReplaceAll offsets length data =>
    cases stepped
    by_cases none : offsets = []
    · subst none
      exact onLine
    · obtain ⟨line, depth⟩ := recordLocalReplaceAll_line state.history length data none
      exact onLine.push (keeps.resolve_left none) line depth
  | recordCheckpointReplaceAll transaction =>
    cases stepped
    exact onLine.push keeps rfl rfl
  | recordMilestone =>
    cases stepped
    refine onLine.of_timeline ?_ ?_ rfl <;> simp only [Controller.recordMilestone] <;> split <;> rfl
  | markSaved =>
    cases stepped
    exact onLine_of_active rfl rfl
  | undo executor =>
    obtain ⟨called, saved⟩ := step_call stepped (by rintro ⟨⟩) (by rintro _ _ ⟨⟩)
    rcases state.history.undo_cases executor with same | ⟨transaction, last, moved⟩
    · replace same := called.trans same
      exact onLine.of_timeline (by rw [same]) (by rw [same]) saved
    · replace moved := called.trans moved
      exact onLine.of_timeline (by rw [moved, timeline_moveToUndone last]) (by rw [moved]; rfl) saved
  | redo executor =>
    obtain ⟨called, saved⟩ := step_call stepped (by rintro ⟨⟩) (by rintro _ _ ⟨⟩)
    rcases state.history.redo_cases executor with same | ⟨transaction, last, moved⟩
    · replace same := called.trans same
      exact onLine.of_timeline (by rw [same]) (by rw [same]) saved
    · replace moved := called.trans moved
      exact onLine.of_timeline (by rw [moved, timeline_moveToActive last]) (by rw [moved]; rfl) saved
  | reconcile active undone saved =>
    obtain ⟨moved, noted⟩ := step_reconcile stepped
    rw [Keeps] at keeps
    cases diverges : state.history.diverges active.toNat undone.toNat with
    | true =>
      rw [diverges, if_pos rfl] at keeps moved
      cases saved with
      | true =>
        refine onLine_of_active ?_ noted
        rw [moved]
        simp [Controller.rebuild, Controller.opaques]
      | false =>
        -- Nothing was saved before, and nothing is noted now.
        have empty : state.history.savedChangeDepth = 0 := keeps.resolve_left Bool.false_ne_true
        have depth : next.history.savedChangeDepth = 0 := by
          rw [moved]
          rfl
        constructor
        · rw [depth]
          exact Nat.zero_le _
        · rw [noted, depth]
          have saved := onLine.saved
          rw [empty] at saved
          exact saved
    | false =>
      rw [diverges, if_neg Bool.false_ne_true] at keeps moved
      cases saved with
      | true =>
        refine onLine_of_active ?_ noted
        rw [moved]
        exact (isDirty_eq_false.mp (keeps rfl)).symm
      | false => exact onLine.of_timeline (by rw [moved]) (by rw [moved]) noted

/-- States that undoing leads to. -/
abbrev Undone : Tracked → Tracked → Prop :=
  Transition.Reaches Tracked.step fun _ call => call = .undo .succeeding

lemma undone_step {start : Tracked} {transaction : Transaction} (undone : Undone start state)
    (last : state.history.transactionLog.getLast? = some transaction) :
    Undone start ⟨state.history.moveToUndone transaction, state.saved⟩ := by
  have stepped : state.step (.undo .succeeding) =
      .ok (⟨state.history.moveToUndone transaction, state.saved⟩, true) := by
    simp only [Tracked.step, Controller.call, Controller.undo_succeeding last]
  exact .step undone rfl stepped

lemma exists_undone_all (state : Tracked) :
    ∃ empty, Undone state empty ∧ empty.history.transactionLog = [] ∧
      empty.history.savedChangeDepth = state.history.savedChangeDepth ∧ empty.saved = state.saved := by
  have all : ∀ count (reached : Tracked), Undone state reached →
      reached.history.transactionLog.length = count →
      reached.history.savedChangeDepth = state.history.savedChangeDepth → reached.saved = state.saved →
      ∃ empty, Undone state empty ∧ empty.history.transactionLog = [] ∧
        empty.history.savedChangeDepth = state.history.savedChangeDepth ∧ empty.saved = state.saved := by
    intro count
    induction count with
    | zero =>
      intro reached undone length depth saved
      exact ⟨reached, undone, List.eq_nil_of_length_eq_zero length, depth, saved⟩
    | succ count ih =>
      intro reached undone length depth saved
      obtain ⟨transaction, last⟩ : ∃ transaction,
          reached.history.transactionLog.getLast? = some transaction := by
        rw [← Option.isSome_iff_exists, List.getLast?_isSome]
        intro none
        rw [none] at length
        cases length
      refine ih _ (undone_step undone last) ?_ depth saved
      simp only [Controller.moveToUndone, List.length_dropLast, length]
      omega
  exact all _ state .refl rfl rfl rfl

lemma not_sound_of_length {state : Tracked}
    (clean : state.history.transactionLog.length = state.history.savedChangeDepth)
    (longer : state.history.transactionLog.length < state.saved.length) : ¬ state.Sound := by
  intro sound
  have same := congrArg List.length (sound.mp (isDirty_eq_false.mpr clean))
  rw [length_identities] at same
  omega

/-- A transaction that takes the place of saved ones is undone into a state that looks saved. -/
lemma exists_not_sound_of_push {history : Controller} (record : TransactionRecord) {saved : List Nat}
    (onLine : Tracked.OnLine ⟨history, saved⟩)
    (before : history.transactionLog.length < history.savedChangeDepth) {pushed : Controller}
    (log : pushed.transactionLog = (history.discardRedoBranch.push record).transactionLog)
    (depth : pushed.savedChangeDepth = history.discardRedoBranch.savedChangeDepth) :
    ∃ undone, Undone ⟨pushed, saved⟩ undone ∧ ¬ undone.Sound := by
  have last : pushed.transactionLog.getLast? = some ⟨history.allocated, record⟩ := by
    rw [log]
    exact List.getLast?_concat ..
  refine ⟨_, undone_step .refl last, not_sound_of_length ?_ ?_⟩
  · simp only [Controller.moveToUndone, log, Controller.push, List.dropLast_concat, depth]
    exact (Nat.min_eq_right (le_of_lt before)).symm
  · simp only [Controller.moveToUndone, log, Controller.push, List.dropLast_concat]
    have length := congrArg List.length onLine.saved
    rw [List.length_take, Nat.min_eq_left onLine.within] at length
    rw [length]
    exact before

/-- A call that does not keep the saved transactions leads to a flag that is wrong, if not at once
then after some undoing. -/
theorem Tracked.OnLine.exists_not_sound {call : Call} (onLine : state.OnLine)
    (loses : ¬ Keeps state.history call) (stepped : state.step call = .ok (next, answer)) :
    ∃ undone, Undone next undone ∧ ¬ undone.Sound := by
  cases call with
  | recordLocalChanges changes =>
    cases stepped
    rw [Keeps, not_or, not_le] at loses
    obtain ⟨_, depth⟩ := recordLocalChanges_line state.history loses.1
    refine exists_not_sound_of_push (.tracked changes.length) onLine loses.2 ?_ depth
    simp only [Controller.recordLocalChanges]
    rw [if_neg (by simpa using loses.1)]
    rfl
  | recordLocalMutation =>
    cases stepped
    exact exists_not_sound_of_push .untracked onLine (not_le.mp loses) rfl rfl
  | recordLocalReplaceAll offsets length data =>
    cases stepped
    rw [Keeps, not_or, not_le] at loses
    obtain ⟨_, depth⟩ := recordLocalReplaceAll_line state.history length data loses.1
    refine exists_not_sound_of_push (.tracked offsets.length) onLine loses.2 ?_ depth
    simp only [Controller.recordLocalReplaceAll, Controller.recordLocalChanges]
    rw [if_neg (by simpa using loses.1), if_neg (by simpa using loses.1), List.length_mapIdx]
    rfl
  | recordCheckpointReplaceAll transaction =>
    cases stepped
    exact exists_not_sound_of_push (.checkpointReplaceAll transaction) onLine
      (not_le.mp loses) rfl rfl
  | recordMilestone | markSaved | undo executor | redo executor => exact absurd trivial loses
  | reconcile active undone saved =>
    obtain ⟨moved, noted⟩ := step_reconcile stepped
    rw [Keeps] at loses
    cases diverges : state.history.diverges active.toNat undone.toNat with
    | true =>
      rw [diverges, if_pos rfl] at loses moved
      rw [not_or] at loses
      obtain rfl := eq_false_of_ne_true loses.1
      have length := congrArg List.length onLine.saved
      rw [List.length_take, Nat.min_eq_left onLine.within] at length
      obtain ⟨empty, undone, none, depth, kept⟩ := exists_undone_all next
      refine ⟨empty, undone, not_sound_of_length ?_ ?_⟩
      · rw [none, depth, moved]
        rfl
      · rw [none, kept, noted]
        have := Nat.pos_of_ne_zero loses.2
        simp only [List.length_nil, Bool.false_eq_true, if_false]
        omega
    | false =>
      rw [diverges, if_neg Bool.false_ne_true, Classical.not_imp] at loses
      rw [diverges, if_neg Bool.false_ne_true] at moved
      obtain ⟨rfl, dirty⟩ := loses
      refine ⟨next, .refl, fun sound => dirty ?_⟩
      rw [← moved]
      exact sound.mpr noted.symm

end Steps

lemma onLine_initial : Tracked.initial.OnLine := ⟨Nat.zero_le _, rfl⟩

/-- As long as every call keeps the saved transactions, the flag is off exactly where the active
transactions are the saved ones. The first call that does not keep them can be undone into a state
where the flag is wrong. -/
theorem isDirty_tells_saved {state : Tracked}
    (reached : Transition.Reaches Tracked.step (fun state call => Keeps state.history call) .initial state) :
    state.Sound ∧ ∀ call next answer, state.step call = .ok (next, answer) →
      (Keeps state.history call ↔ ∀ undone, Undone next undone → undone.Sound) := by
  have onLine : state.OnLine := reached.invariant onLine_initial
    fun _ _ _ _ onLine keeps stepped => onLine.step keeps stepped
  refine ⟨onLine.sound, fun call next answer stepped => ⟨?_, ?_⟩⟩
  · intro keeps undone undoing
    have line := undoing.invariant (onLine.step keeps stepped) ?_
    · exact line.sound
    · rintro state next _ answer onLine rfl stepped
      exact onLine.step (by trivial) stepped
  · intro sound
    by_contra loses
    obtain ⟨undone, undoing, wrong⟩ := onLine.exists_not_sound loses stepped
    exact wrong (sound undone undoing)

instance (history : Controller) (call : Call) : Decidable (Keeps history call) := by
  unfold Keeps
  split <;> infer_instance

/-- After one saved transaction. -/
theorem isDirty_tells_saved_once :
    ∃ state, Transition.Reaches Tracked.step (fun state call => Keeps state.history call) .initial state ∧
      state.saved = [0] ∧ state.Sound := by
  obtain ⟨state, reached, saved⟩ := Transition.exists_reaches Tracked.step
    (fun state call => Keeps state.history call) .initial (fun state => state.saved == [0])
    [.recordLocalMutation, .markSaved] (by decide)
  exact ⟨state, reached, beq_iff_eq.mp saved, (isDirty_tells_saved reached).1⟩

/-- The flag is off, and the active transactions are not the saved ones. -/
def Tracked.looksSaved (state : Tracked) : Bool :=
  !state.history.getEditState.isDirty && identities state.history.transactionLog != state.saved

lemma Tracked.not_sound_of_looksSaved {state : Tracked} (looks : state.looksSaved = true) :
    ¬ state.Sound := by
  rw [Tracked.looksSaved, Bool.and_eq_true, Bool.not_eq_true', bne_iff_ne] at looks
  exact fun sound => looks.2 (sound.mp looks.1)

/-- A transaction is saved, undone and replaced. When its replacement is undone too, the flag is off,
though the saved transaction is not active. The same happens after the stacks have been rebuilt from
native counts with the state reported as not saved. -/
theorem isDirty_off_without_saved :
    (∃ state, Transition.Reaches Tracked.step
        (fun _ call => call = .recordLocalMutation ∨ call = .markSaved ∨ call = .undo .succeeding)
        .initial state ∧ ¬ state.Sound) ∧ ∃ state, Transition.Reaches Tracked.step
        (fun state call => Keeps state.history call ∨ call = .reconcile 2 0 false) .initial state ∧
        ¬ state.Sound := by
  constructor
  · obtain ⟨state, reached, looks⟩ := Transition.exists_reaches Tracked.step
      (fun _ call => call = .recordLocalMutation ∨ call = .markSaved ∨ call = .undo .succeeding)
      .initial Tracked.looksSaved
      [.recordLocalMutation, .markSaved, .undo .succeeding, .recordLocalMutation, .undo .succeeding]
      (by decide)
    exact ⟨state, reached, Tracked.not_sound_of_looksSaved looks⟩
  · obtain ⟨state, reached, looks⟩ := Transition.exists_reaches Tracked.step
      (fun state call => Keeps state.history call ∨ call = .reconcile 2 0 false)
      .initial Tracked.looksSaved
      [.recordLocalMutation, .markSaved, .reconcile 2 0 false, .undo .succeeding, .undo .succeeding]
      (by decide)
    exact ⟨state, reached, Tracked.not_sound_of_looksSaved looks⟩

end OmegaEdit.EditorHistory
