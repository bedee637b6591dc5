import Mathlib.Algebra.GroupWithZero.Nat
import Mathlib.Logic.Function.Iterate
import OmegaEdit.Client.EditorHistory

/-! Moving along the history of an editor. The changes of the tracked transactions stand in the
order of the transactions, so a move takes from one log what the move back puts there again. -/
namespace OmegaEdit.EditorHistory

/-- The number of changes that a transaction moves. -/
def TransactionRecord.changes : TransactionRecord → Nat
  | .tracked changeCount => changeCount
  | _ => 0

def changesOf (log : List Transaction) : Nat := (log.map (·.record.changes)).sum

lemma changesOf_concat (log : List Transaction) (transaction : Transaction) :
    changesOf (log ++ [transaction]) = changesOf log + transaction.record.changes := by
  simp [changesOf]

/-- An empty source and a count of zero are no special cases. -/
lemma moveLastChanges_eq (source target : List ChangeRecord) (count : Nat) :
    moveLastChanges source target count =
      (source.take (source.length - count), target ++ source.drop (source.length - count)) := by
  rw [moveLastChanges]
  split
  · rename_i still
    rcases still with empty | none
    · simp [List.isEmpty_iff.mp empty]
    · simp [none]
  · rfl

lemma moveLastChanges_back {source : List ChangeRecord} {count : Nat}
    (enough : count ≤ source.length) (target : List ChangeRecord) :
    moveLastChanges (moveLastChanges source target count).2 (moveLastChanges source target count).1
      count = (target, source) := by
  have kept : (target ++ source.drop (source.length - count)).length - count = target.length := by
    rw [List.length_append, List.length_drop]
    omega
  rw [moveLastChanges_eq source target]
  dsimp only
  rw [moveLastChanges_eq, kept, List.take_left, List.drop_left, List.take_append_drop]

lemma length_moveLastChanges {source : List ChangeRecord} {count : Nat}
    (enough : count ≤ source.length) (target : List ChangeRecord) :
    (moveLastChanges source target count).1.length + count = source.length ∧
      (moveLastChanges source target count).2.length = target.length + count := by
  simp only [moveLastChanges_eq, List.length_take, List.length_append, List.length_drop]
  omega

lemma moveLastChanges_zero (source target : List ChangeRecord) :
    moveLastChanges source target 0 = (source, target) := if_pos (.inr rfl)

namespace Controller
variable {history next : Controller} {transaction : Transaction}

def totalDepth (history : Controller) : Nat :=
  history.transactionLog.length + history.undoneTransactionLog.length

lemma moveToUndone_eq (history : Controller) (transaction : Transaction) :
    history.moveToUndone transaction = { history with
      changeLog := (moveLastChanges history.changeLog history.undoneChangeLog
        transaction.record.changes).1
      undoneChangeLog := (moveLastChanges history.changeLog history.undoneChangeLog
        transaction.record.changes).2
      transactionLog := history.transactionLog.dropLast
      undoneTransactionLog := history.undoneTransactionLog ++ [transaction] } := by
  unfold moveToUndone
  cases transaction.record with
  | tracked changeCount => rfl
  | untracked | checkpointReplaceAll => simp only [TransactionRecord.changes, moveLastChanges_zero]

/-- The controller with the active and the undone side exchanged. -/
def flip (history : Controller) : Controller :=
  { history with
    changeLog := history.undoneChangeLog
    undoneChangeLog := history.changeLog
    transactionLog := history.undoneTransactionLog
    undoneTransactionLog := history.transactionLog }

lemma moveToActive_eq (history : Controller) (transaction : Transaction) :
    history.moveToActive transaction = (history.flip.moveToUndone transaction).flip := by
  unfold moveToActive moveToUndone
  cases transaction.record <;> rfl

lemma rewindLast_eq (history : Controller) (transaction : Transaction) :
    history.rewindLast transaction = history.moveToUndone transaction := by
  unfold rewindLast moveToUndone
  cases transaction.record <;> rfl

lemma advanceLast_eq (history : Controller) (transaction : Transaction) :
    history.advanceLast transaction = history.moveToActive transaction := by
  unfold advanceLast moveToActive
  cases transaction.record <;> rfl

/-- The active transactions, and the undone ones in the order in which they are redone. -/
def line (history : Controller) : List Transaction :=
  history.transactionLog ++ history.undoneTransactionLog.reverse

lemma line_moveToUndone (last : history.transactionLog.getLast? = some transaction) :
    (history.moveToUndone transaction).line = history.line := by
  have split := List.dropLast_append_getLast? transaction last
  simp only [line, moveToUndone, List.reverse_append, List.reverse_singleton, List.singleton_append]
  rw [← List.singleton_append, ← List.append_assoc, split]

lemma line_moveToActive (last : history.undoneTransactionLog.getLast? = some transaction) :
    (history.moveToActive transaction).line = history.line := by
  have split := List.dropLast_append_getLast? transaction last
  have reversed : history.undoneTransactionLog.reverse =
      transaction :: history.undoneTransactionLog.dropLast.reverse := by
    rw [← List.singleton_append, ← List.reverse_singleton, ← List.reverse_append, split]
  simp only [line, moveToActive]
  rw [reversed, List.append_assoc, List.singleton_append]

lemma moveToUndone_changeLog (history : Controller) (transaction : Transaction) :
    (history.moveToUndone transaction).changeLog <+: history.changeLog := by
  rw [moveToUndone_eq, moveLastChanges_eq]
  exact List.take_prefix _ _

lemma moveToActive_changeLog (history : Controller) (transaction : Transaction) :
    history.changeLog <+: (history.moveToActive transaction).changeLog := by
  rw [moveToActive_eq, moveToUndone_eq, moveLastChanges_eq]
  exact List.prefix_append _ _

/-- The logs hold the changes of the tracked transactions, and the depths are on the timeline. -/
structure Balanced (history : Controller) : Prop where
  active : changesOf history.transactionLog = history.changeLog.length
  undone : changesOf history.undoneTransactionLog = history.undoneChangeLog.length
  saved : history.savedChangeDepth ≤ history.totalDepth
  milestones : ∀ depth ∈ history.milestoneDepths, depth ≤ history.totalDepth
  group : 1 ≤ history.nextSyntheticGroupId

namespace Balanced

lemma moveToUndone (balanced : history.Balanced)
    (last : history.transactionLog.getLast? = some transaction) :
    (history.moveToUndone transaction).Balanced ∧
      (history.moveToUndone transaction).moveToActive transaction = history ∧
      (history.moveToUndone transaction).transactionLog.length + 1 =
        history.transactionLog.length := by
  obtain ⟨log, split⟩ := List.getLast?_eq_some_iff.mp last
  obtain ⟨active, undone, saved, milestones, group⟩ := balanced
  rw [split, changesOf_concat] at active
  have enough : transaction.record.changes ≤ history.changeLog.length := by omega
  have lengths := length_moveLastChanges enough history.undoneChangeLog
  have total : (history.moveToUndone transaction).totalDepth = history.totalDepth := by
    rw [moveToUndone_eq, totalDepth, totalDepth, split]
    simp only [List.dropLast_concat, List.length_append, List.length_singleton]
    omega
  refine ⟨⟨?_, ?_, ?_, ?_, group⟩, ?_, ?_⟩
  · rw [moveToUndone_eq]
    simp only [split, List.dropLast_concat]
    omega
  · rw [moveToUndone_eq]
    simp only [changesOf_concat]
    omega
  · rw [total]
    exact saved
  · rw [total]
    exact milestones
  · rw [moveToActive_eq, moveToUndone_eq, moveToUndone_eq]
    simp only [flip, moveLastChanges_back enough, split, List.dropLast_concat]
    rw [← split]
  · rw [moveToUndone_eq, split]
    simp only [List.dropLast_concat, List.length_append, List.length_singleton]

lemma flip (balanced : history.Balanced) : history.flip.Balanced := by
  have total : history.flip.totalDepth = history.totalDepth := Nat.add_comm _ _
  exact ⟨balanced.undone, balanced.active, total ▸ balanced.saved, total ▸ balanced.milestones,
    balanced.group⟩

lemma moveToActive (balanced : history.Balanced)
    (last : history.undoneTransactionLog.getLast? = some transaction) :
    (history.moveToActive transaction).Balanced ∧
      (history.moveToActive transaction).transactionLog.length = history.transactionLog.length + 1 ∧
      (history.moveToActive transaction).undoneTransactionLog.length + 1 =
        history.undoneTransactionLog.length := by
  obtain ⟨after, _, shorter⟩ := balanced.flip.moveToUndone last
  rw [moveToActive_eq]
  refine ⟨after.flip, ?_, shorter⟩
  rw [moveToUndone_eq]
  exact List.length_append

lemma push {record : TransactionRecord} {changeLog : List ChangeRecord} {group : Nat}
    (balanced : history.Balanced)
    (counted : changeLog.length = history.changeLog.length + record.changes) (named : 1 ≤ group) :
    ({ history.discardRedoBranch with changeLog, nextSyntheticGroupId := group }.push
      record).Balanced := by
  have longer : ({ history.discardRedoBranch with changeLog, nextSyntheticGroupId := group }.push
      record).totalDepth = history.transactionLog.length + 1 := List.length_append
  refine ⟨?_, rfl, ?_, ?_, named⟩
  · simp only [Controller.push, discardRedoBranch, changesOf_concat, counted, balanced.active]
  · rw [longer]
    exact Nat.le_succ_of_le (Nat.min_le_right _ _)
  · intro depth mem
    rw [longer]
    exact Nat.le_succ_of_le (of_decide_eq_true (List.mem_filter.mp mem).2)

end Balanced

lemma undo_cases (history : Controller) (executor : Executor) :
    (history.undo executor).1 = history ∨ ∃ transaction,
      history.transactionLog.getLast? = some transaction ∧
      (history.undo executor).1 = history.moveToUndone transaction := by
  unfold undo
  split
  · exact .inl rfl
  · rename_i transaction last
    dsimp only
    split
    · exact .inl rfl
    · split
      · exact .inr ⟨transaction, last, rfl⟩
      · exact .inl rfl

lemma redo_cases (history : Controller) (executor : Executor) :
    (history.redo executor).1 = history ∨ ∃ transaction,
      history.undoneTransactionLog.getLast? = some transaction ∧
      (history.redo executor).1 = history.moveToActive transaction := by
  unfold redo
  split
  · exact .inl rfl
  · rename_i transaction last
    split
    · right
      refine ⟨transaction, last, ?_⟩
      dsimp only
      split <;> rfl
    · exact .inl rfl

lemma undo_succeeding (last : history.transactionLog.getLast? = some transaction) :
    history.undo .succeeding = (history.moveToUndone transaction, .ok true) := by
  have undoes : Executor.succeeding.undoes transaction.record = true := by
    cases transaction.record <;> rfl
  have crosses : (if history.transactionLog.length ∈ history.milestoneDepths then
      crossing Executor.succeeding.undoMilestone else none) = none := ite_self _
  rw [undo, last]
  simp only [crosses, undoes, if_true]

lemma redo_succeeding (last : history.undoneTransactionLog.getLast? = some transaction) :
    (history.redo .succeeding).1 = history.moveToActive transaction := by
  have redoes : Executor.succeeding.redoes transaction.record = true := by
    cases transaction.record <;> rfl
  have crosses : (if (history.moveToActive transaction).transactionLog.length ∈
      (history.moveToActive transaction).milestoneDepths then
      crossing Executor.succeeding.redoMilestone else none) = none := ite_self _
  rw [redo, last]
  simp only [redoes, if_true, crosses]

def undos (count : Nat) (history : Controller) : Controller :=
  (fun history => (history.undo .succeeding).1)^[count] history

def redos (count : Nat) (history : Controller) : Controller :=
  (fun history => (history.redo .succeeding).1)^[count] history

lemma exists_last {log : List Transaction} (nonempty : 0 < log.length) :
    ∃ transaction, log.getLast? = some transaction :=
  ⟨_, List.getLast?_eq_some_getLast (List.ne_nil_of_length_pos nonempty)⟩

/-- What moving along the history from one controller to another keeps. -/
structure Along (history next : Controller) : Prop where
  balanced : next.Balanced
  line : next.line = history.line

lemma Along.depths (along : history.Along next) :
    next.transactionLog.length + next.undoneTransactionLog.length = history.totalDepth := by
  have lengths := congrArg List.length along.line
  simpa [Controller.line, totalDepth] using lengths

/-- Redoing what has been undone gives the history back. -/
lemma Balanced.undos (balanced : history.Balanced) {count : Nat}
    (le : count ≤ history.transactionLog.length) :
    history.Along (undos count history) ∧ (undos count history).changeLog <+: history.changeLog ∧
      (undos count history).transactionLog.length + count = history.transactionLog.length ∧
      redos count (undos count history) = history := by
  induction count with
  | zero => exact ⟨⟨balanced, rfl⟩, List.prefix_rfl, rfl, rfl⟩
  | succ count ih =>
    obtain ⟨⟨before, line⟩, changes, length, back⟩ := ih (by omega)
    obtain ⟨transaction, last⟩ :=
      exists_last (by omega : 0 < (Controller.undos count history).transactionLog.length)
    have first : Controller.undos (count + 1) history =
        (Controller.undos count history).moveToUndone transaction := by
      rw [Controller.undos, Function.iterate_succ_apply']
      exact congrArg Prod.fst (undo_succeeding last)
    obtain ⟨after, again, shorter⟩ := before.moveToUndone last
    have undone : ((Controller.undos count history).moveToUndone
        transaction).undoneTransactionLog.getLast? = some transaction := by
      rw [moveToUndone_eq]
      simp
    rw [first]
    refine ⟨⟨after, (line_moveToUndone last).trans line⟩,
      (moveToUndone_changeLog _ transaction).trans changes, by omega, ?_⟩
    rw [redos, Function.iterate_succ_apply, redo_succeeding undone, again]
    exact back

lemma Balanced.redos (balanced : history.Balanced) {count : Nat}
    (le : count ≤ history.undoneTransactionLog.length) :
    history.Along (redos count history) ∧ history.changeLog <+: (redos count history).changeLog ∧
      (redos count history).transactionLog.length = history.transactionLog.length + count := by
  induction count with
  | zero => exact ⟨⟨balanced, rfl⟩, List.prefix_rfl, rfl⟩
  | succ count ih =>
    obtain ⟨along, changes, length⟩ := ih (by omega)
    have depths := along.depths
    unfold totalDepth at depths
    obtain ⟨transaction, last⟩ :=
      exists_last (by omega : 0 < (Controller.redos count history).undoneTransactionLog.length)
    obtain ⟨after, longer, _⟩ := along.balanced.moveToActive last
    rw [Controller.redos, Function.iterate_succ_apply', ← Controller.redos, redo_succeeding last]
    exact ⟨⟨after, (line_moveToActive last).trans along.line⟩,
      changes.trans (moveToActive_changeLog _ transaction), by omega⟩

/-- The first loop of `fromSnapshotAtDepth` undoes. -/
lemma rewindTo_eq {depth turns : Nat} (balanced : history.Balanced)
    (enough : history.transactionLog.length ≤ depth + turns) :
    history.rewindTo depth turns = undos (history.transactionLog.length - depth) history := by
  induction turns generalizing history with
  | zero =>
    rw [Nat.sub_eq_zero_of_le (by omega)]
    rfl
  | succ turns ih =>
    rw [rewindTo]
    split
    · rename_i deep
      obtain ⟨transaction, last⟩ := exists_last (by omega : 0 < history.transactionLog.length)
      obtain ⟨after, _, shorter⟩ := balanced.moveToUndone last
      rw [last]
      dsimp only
      rw [rewindLast_eq]
      have step : history.transactionLog.length - depth =
          (history.moveToUndone transaction).transactionLog.length - depth + 1 := by omega
      rw [ih after (by omega), step, undos, undos, Function.iterate_succ_apply, undo_succeeding last]
    · rename_i there
      rw [Nat.sub_eq_zero_of_le (Nat.le_of_not_lt there)]
      rfl

/-- The second loop of `fromSnapshotAtDepth` redoes. -/
lemma advanceTo_eq {depth turns : Nat} (balanced : history.Balanced)
    (enough : history.undoneTransactionLog.length ≤ turns) (within : depth ≤ history.totalDepth) :
    history.advanceTo depth turns = redos (depth - history.transactionLog.length) history := by
  induction turns generalizing history with
  | zero =>
    rw [Nat.sub_eq_zero_of_le (by unfold totalDepth at within; omega)]
    rfl
  | succ turns ih =>
    rw [advanceTo]
    split
    · rename_i shallow
      obtain ⟨transaction, last⟩ := exists_last
        (by unfold totalDepth at within; omega : 0 < history.undoneTransactionLog.length)
      obtain ⟨after, longer, shorter⟩ := balanced.moveToActive last
      rw [last]
      dsimp only
      rw [advanceLast_eq]
      have step : depth - history.transactionLog.length =
          depth - (history.moveToActive transaction).transactionLog.length + 1 := by omega
      rw [ih after (by omega) (by unfold totalDepth at within ⊢; omega), step, redos, redos,
        Function.iterate_succ_apply, redo_succeeding last]
    · rename_i there
      rw [Nat.sub_eq_zero_of_le (Nat.le_of_not_lt there)]
      rfl

/-- The history moved to a depth by repeated undo or redo. -/
def moveToDepth (history : Controller) (depth : Nat) : Controller :=
  if depth ≤ history.transactionLog.length then undos (history.transactionLog.length - depth) history
  else redos (depth - history.transactionLog.length) history

lemma fromSnapshot_eq (balanced : history.Balanced) : fromSnapshot history = .ok history := by
  have valid : ¬ (history.nextSyntheticGroupId < 1 ∨ history.savedChangeDepth >
      history.transactionLog.length + history.undoneTransactionLog.length) := by
    have saved := balanced.saved
    have group := balanced.group
    unfold totalDepth at saved
    omega
  have milestones : history.milestoneDepths.filter
      (· ≤ history.transactionLog.length + history.undoneTransactionLog.length) =
        history.milestoneDepths :=
    List.filter_eq_self.mpr fun depth mem => decide_eq_true (balanced.milestones depth mem)
  rw [fromSnapshot]
  simp only [if_neg valid, milestones]

/-- The loops of a snapshot that is opened at a depth do what undo and redo do. -/
lemma fromSnapshotAtDepth_eq (balanced : history.Balanced) {depth : Nat}
    (within : depth ≤ history.totalDepth) :
    fromSnapshotAtDepth history depth = .ok (history.moveToDepth depth) := by
  have inside : ¬ ((depth : Int) < 0 ∨
      (depth : Int) > (history.transactionLog.length + history.undoneTransactionLog.length : Nat)) := by
    unfold totalDepth at within
    omega
  rw [fromSnapshotAtDepth, fromSnapshot_eq balanced]
  simp only [bind, Except.bind, if_neg inside, Int.toNat_natCast]
  rw [rewindTo_eq balanced (Nat.le_add_left _ _), moveToDepth]
  split
  · rename_i shallow
    obtain ⟨⟨after, _⟩, _, length, _⟩ := balanced.undos
      (Nat.sub_le history.transactionLog.length depth)
    generalize undos (history.transactionLog.length - depth) history = rewound at after length ⊢
    rw [advanceTo_eq after le_rfl (by unfold totalDepth; omega),
      Nat.sub_eq_zero_of_le (by omega)]
    rfl
  · rename_i deep
    rw [Nat.sub_eq_zero_of_le (by omega)]
    exact congrArg Except.ok (advanceTo_eq balanced le_rfl within)

/-- A controller that stands at a depth of the line of another one. -/
structure At (history moved : Controller) (depth : Nat) : Prop where
  active : moved.transactionLog = history.line.take depth
  undone : moved.undoneTransactionLog = (history.line.drop depth).reverse
  activeChanges : changesOf moved.transactionLog = moved.changeLog.length
  undoneChanges : changesOf moved.undoneTransactionLog = moved.undoneChangeLog.length
  before : depth ≤ history.transactionLog.length → moved.changeLog <+: history.changeLog
  behind : history.transactionLog.length ≤ depth → history.changeLog <+: moved.changeLog

lemma at_moveToDepth (balanced : history.Balanced) {depth : Nat} (within : depth ≤ history.totalDepth) :
    history.At (history.moveToDepth depth) depth := by
  have there : ∀ {moved : Controller}, history.Along moved → moved.transactionLog.length = depth →
      (depth ≤ history.transactionLog.length → moved.changeLog <+: history.changeLog) →
      (history.transactionLog.length ≤ depth → history.changeLog <+: moved.changeLog) →
      history.At moved depth := by
    intro moved along length before behind
    refine ⟨?_, ?_, along.balanced.active, along.balanced.undone, before, behind⟩
    · rw [← along.line, ← length, line, List.take_left]
    · rw [← along.line, ← length, line, List.drop_left, List.reverse_reverse]
  rw [moveToDepth]
  split
  · rename_i shallow
    obtain ⟨along, changes, length, _⟩ := balanced.undos
      (Nat.sub_le history.transactionLog.length depth)
    refine there along (by omega) (fun _ => changes) fun deep => ?_
    rw [Nat.sub_eq_zero_of_le deep]
    exact List.prefix_rfl
  · rename_i deep
    unfold totalDepth at within
    obtain ⟨along, changes, length⟩ := balanced.redos
      (by omega : depth - history.transactionLog.length ≤ _)
    exact there along (by omega) (fun shallow => absurd shallow deep) fun _ => changes

/-- A call that does not throw. -/
def step (history : Controller) (call : Call) : Except HistoryError (Controller × Bool) :=
  match history.call call with
  | (_, .error error) => .error error
  | (next, .ok answer) => .ok (next, answer)

end Controller

/-- The calls that record, mark the state as saved, undo and redo. -/
def Call.Navigates : Call → Prop
  | .reconcile _ _ _ => False
  | _ => True

namespace Controller
variable {history : Controller}

lemma Balanced.call {call : Call} (balanced : history.Balanced) (navigates : call.Navigates) :
    (history.call call).1.Balanced := by
  cases call with
  | recordLocalChanges changes =>
    rw [Controller.call, recordLocalChanges]
    split
    · exact balanced
    · exact balanced.push List.length_append balanced.group
  | recordLocalMutation | recordCheckpointReplaceAll transaction =>
    exact balanced.push rfl balanced.group
  | recordLocalReplaceAll offsets length data =>
    rw [Controller.call, recordLocalReplaceAll]
    split
    · exact balanced
    · dsimp only
      rw [recordLocalChanges]
      split
      · exact ⟨balanced.active, balanced.undone, balanced.saved, balanced.milestones,
          Nat.le_succ_of_le balanced.group⟩
      · exact balanced.push List.length_append (Nat.le_succ_of_le balanced.group)
  | recordMilestone =>
    rw [Controller.call, recordMilestone]
    dsimp only
    split
    · refine ⟨balanced.active, balanced.undone, balanced.saved, ?_, balanced.group⟩
      intro depth mem
      rcases List.mem_append.mp mem with old | new
      · exact balanced.milestones depth old
      · rw [List.mem_singleton.mp new]
        exact Nat.le_add_right _ _
    · exact balanced
  | markSaved =>
    exact ⟨balanced.active, balanced.undone, Nat.le_add_right _ _, balanced.milestones, balanced.group⟩
  | undo executor =>
    rw [Controller.call]
    rcases history.undo_cases executor with same | ⟨transaction, last, moved⟩
    · rwa [same]
    · rw [moved]
      exact (balanced.moveToUndone last).1
  | redo executor =>
    rw [Controller.call]
    rcases history.redo_cases executor with same | ⟨transaction, last, moved⟩
    · rwa [same]
    · rw [moved]
      exact (balanced.moveToActive last).1
  | reconcile active undone saved => exact navigates.elim

/-- In every state that is reached the logs hold the changes of the tracked transactions, redoing
gives back what was undone, and a snapshot opened at a depth is what the moves to this depth leave. -/
theorem history_navigation_exact
    (reached : Transition.Reaches step (fun _ call => call.Navigates) initial history) :
    changesOf history.transactionLog = history.changeLog.length ∧
    changesOf history.undoneTransactionLog = history.undoneChangeLog.length ∧
    (∀ count ≤ history.transactionLog.length, redos count (undos count history) = history) ∧
    ∀ depth ≤ history.totalDepth, history.At (history.moveToDepth depth) depth ∧
      fromSnapshotAtDepth history depth = .ok (history.moveToDepth depth) := by
  have balanced : history.Balanced := by
    refine reached.invariant ⟨rfl, rfl, le_refl 0, nofun, le_refl 1⟩ ?_
    intro history next call answer balanced navigates stepped
    have kept := balanced.call navigates
    rw [step] at stepped
    split at stepped
    · cases stepped
    · rename_i after same
      cases stepped
      rwa [same] at kept
  exact ⟨balanced.active, balanced.undone, fun count le => (balanced.undos le).2.2.2,
    fun depth within => ⟨at_moveToDepth balanced within, fromSnapshotAtDepth_eq balanced within⟩⟩

/-- One insertion, two replacements in one transaction, and the way back to the insertion. -/
theorem history_navigation_two_changes :
    ∃ history first second third, history.changeLog = [first, second, third] ∧
      history.transactionLog = [⟨0, .tracked 1⟩, ⟨1, .tracked 2⟩] ∧
      (undos 1 history).changeLog = [first] ∧ (undos 1 history).undoneChangeLog = [second, third] ∧
      redos 1 (undos 1 history) = history ∧
      fromSnapshotAtDepth history 1 = .ok (undos 1 history) := by
  have reached : Transition.Reaches step (fun _ call => call.Navigates) initial
      ((initial.recordLocalChanges [⟨1, .insert, 0, 1, [97], none⟩]).recordLocalReplaceAll [0, 2] 1
        [98]) :=
    .step (.step .refl (by trivial : (Call.recordLocalChanges _).Navigates) rfl)
      (by trivial : (Call.recordLocalReplaceAll _ _ _).Navigates) rfl
  obtain ⟨_, _, back, depths⟩ := history_navigation_exact reached
  exact ⟨_, _, _, _, rfl, rfl, rfl, rfl, back 1 (by decide), (depths 1 (by decide)).2⟩

end Controller

end OmegaEdit.EditorHistory
