import Mathlib.Algebra.Order.Interval.Finset.SuccPred
import Mathlib.Data.Nat.SuccPred
import Mathlib.Order.Interval.Finset.Nat
import OmegaEdit.Client.Navigation

/-! Crossing milestones. An undo crosses a milestone before it undoes the transaction, a redo
afterwards. If the second of the two executor calls is rejected, the first has been made
already, and the controller and the executor are out of step from then on. -/
namespace OmegaEdit.EditorHistory

/-- The calls of an executor that have resolved. A milestone is named by its depth. -/
inductive ExecutorCall where
  | undoTransaction
  | redoTransaction
  | undoMilestone (depth : Nat)
  | redoMilestone (depth : Nat)
deriving DecidableEq, Repr

inductive Navigation where
  | undo (executor : Executor)
  | redo (executor : Executor)
deriving DecidableEq, Repr

def ExecutorCall.undoesMilestone : ExecutorCall → Bool
  | .undoMilestone _ => true
  | _ => false

def ExecutorCall.redoesMilestone : ExecutorCall → Bool
  | .redoMilestone _ => true
  | _ => false

namespace Controller

def navigate (history : Controller) : Navigation → Controller
  | .undo executor => (history.undo executor).1
  | .redo executor => (history.redo executor).1

/-- The calls that resolve during an undo or a redo, in their order. -/
def executorCalls (history : Controller) : Navigation → List ExecutorCall
  | .undo executor =>
    match history.transactionLog.getLast? with
    | none => []
    | some transaction =>
      let depth := history.transactionLog.length
      let undone := if executor.undoes transaction.record then [.undoTransaction] else []
      if depth ∈ history.milestoneDepths then
        if executor.undoMilestone = some true then .undoMilestone depth :: undone else []
      else undone
  | .redo executor =>
    match history.undoneTransactionLog.getLast? with
    | none => []
    | some transaction =>
      let depth := history.transactionLog.length + 1
      if executor.redoes transaction.record then
        .redoTransaction :: if depth ∈ history.milestoneDepths ∧ executor.redoMilestone = some true
          then [.redoMilestone depth] else []
      else []

/-- The second of the two calls that cross a milestone is not rejected after the first has resolved. -/
def Crosses (history : Controller) : Navigation → Prop
  | .undo executor => history.transactionLog.length ∈ history.milestoneDepths →
      executor.undoMilestone = some true →
      ∀ transaction ∈ history.transactionLog.getLast?, executor.undoes transaction.record = true
  | .redo executor => history.transactionLog.length + 1 ∈ history.milestoneDepths →
      ∀ transaction ∈ history.undoneTransactionLog.getLast?,
        executor.redoes transaction.record = true → executor.redoMilestone = some true

/-- One more undo or redo, with the executor calls so far. -/
def walkStep (walk : Controller × List ExecutorCall) (navigation : Navigation) :
    Controller × List ExecutorCall :=
  (walk.1.navigate navigation, walk.2 ++ walk.1.executorCalls navigation)

/-- The controller after a sequence of undos and redos, and the executor calls that resolved. -/
def walk (start : Controller) (navigations : List Navigation) : Controller × List ExecutorCall :=
  navigations.foldl walkStep (start, [])

end Controller

/-- The number of distinct milestone depths above one depth and up to another. -/
def milestonesBetween (milestones : List Nat) (low high : Nat) : Nat :=
  ((Finset.Ioc low high).filter (· ∈ milestones)).card

/-- What the executor has done is what the controller shows. -/
structure InStep (start : Controller) (walk : Controller × List ExecutorCall) : Prop where
  depth : (walk.1.transactionLog.length : Int) = start.transactionLog.length -
    walk.2.count .undoTransaction + walk.2.count .redoTransaction
  milestones : (walk.2.countP (·.undoesMilestone) : Int) - walk.2.countP (·.redoesMilestone) =
    milestonesBetween start.milestoneDepths walk.1.transactionLog.length start.transactionLog.length -
      milestonesBetween start.milestoneDepths start.transactionLog.length walk.1.transactionLog.length
  once : ∀ depth, walk.2.count (.undoMilestone depth) ≤ walk.2.count (.redoMilestone depth) + 1

/-- The number of distinct milestone depths up to a depth. -/
def milestonesUpTo (milestones : List Nat) (depth : Nat) : Nat := milestonesBetween milestones 0 depth

lemma milestonesBetween_succ (milestones : List Nat) {low high : Nat} (le : low ≤ high) :
    milestonesBetween milestones low (high + 1) =
      milestonesBetween milestones low high + if high + 1 ∈ milestones then 1 else 0 := by
  rw [milestonesBetween, ← Finset.insert_Ioc_right_eq_Ioc_add_one le, Finset.filter_insert]
  split
  · rw [Finset.card_insert_of_notMem (by simp)]
    rfl
  · rfl

lemma milestonesUpTo_add (milestones : List Nat) {low high : Nat} (le : low ≤ high) :
    milestonesUpTo milestones high =
      milestonesUpTo milestones low + milestonesBetween milestones low high := by
  induction high, le using Nat.le_induction with
  | base => simp [milestonesBetween]
  | succ high le ih =>
    rw [milestonesBetween_succ milestones le, ← Nat.add_assoc, ← ih]
    exact milestonesBetween_succ milestones (Nat.zero_le high)

/-- The milestones between two depths, whichever is the higher one. -/
lemma milestonesBetween_sub (milestones : List Nat) (low high : Nat) :
    (milestonesBetween milestones low high : Int) - milestonesBetween milestones high low =
      milestonesUpTo milestones high - milestonesUpTo milestones low := by
  have none {one other : Nat} (le : one ≤ other) : milestonesBetween milestones other one = 0 := by
    rw [milestonesBetween, Finset.Ioc_eq_empty (not_lt.mpr le)]
    rfl
  rcases Nat.le_total low high with le | le
  · have sum := milestonesUpTo_add milestones le
    rw [none le]
    omega
  · have sum := milestonesUpTo_add milestones le
    rw [none le]
    omega

/-- What an undo or a redo does: nothing, or one of the two executor calls, or both. -/
inductive Walks (history : Controller) : Navigation → Controller → List ExecutorCall → Prop where
  | stays {navigation : Navigation} (crosses : history.Crosses navigation) :
      Walks history navigation history []
  | undoes {executor : Executor} {next : Controller}
      (shorter : history.transactionLog.length = next.transactionLog.length + 1)
      (same : next.milestoneDepths = history.milestoneDepths)
      (plain : history.transactionLog.length ∉ history.milestoneDepths) :
      Walks history (.undo executor) next [.undoTransaction]
  | undoesBoth {executor : Executor} {next : Controller}
      (shorter : history.transactionLog.length = next.transactionLog.length + 1)
      (same : next.milestoneDepths = history.milestoneDepths)
      (milestone : history.transactionLog.length ∈ history.milestoneDepths)
      (crosses : history.Crosses (.undo executor)) :
      Walks history (.undo executor) next
        [.undoMilestone history.transactionLog.length, .undoTransaction]
  | undoStuck {executor : Executor} (stuck : ¬ history.Crosses (.undo executor)) :
      Walks history (.undo executor) history [.undoMilestone history.transactionLog.length]
  | redoes {executor : Executor} {next : Controller}
      (longer : next.transactionLog.length = history.transactionLog.length + 1)
      (same : next.milestoneDepths = history.milestoneDepths)
      (plain : next.transactionLog.length ∉ history.milestoneDepths) :
      Walks history (.redo executor) next [.redoTransaction]
  | redoesBoth {executor : Executor} {next : Controller}
      (longer : next.transactionLog.length = history.transactionLog.length + 1)
      (same : next.milestoneDepths = history.milestoneDepths)
      (milestone : next.transactionLog.length ∈ history.milestoneDepths)
      (crosses : history.Crosses (.redo executor)) :
      Walks history (.redo executor) next
        [.redoTransaction, .redoMilestone next.transactionLog.length]
  | redoStuck {executor : Executor} {next : Controller}
      (longer : next.transactionLog.length = history.transactionLog.length + 1)
      (milestone : next.transactionLog.length ∈ history.milestoneDepths)
      (stuck : ¬ history.Crosses (.redo executor)) :
      Walks history (.redo executor) next [.redoTransaction]

lemma crossing_eq_none {answer : Option Bool} : crossing answer = none ↔ answer = some true := by
  rcases answer with _ | _ | _ <;> simp [crossing]

section Steps
variable {history start next : Controller} {navigation : Navigation} {calls more : List ExecutorCall}

lemma walks_undo (history : Controller) (executor : Executor) :
    Walks history (.undo executor) (history.navigate (.undo executor))
      (history.executorCalls (.undo executor)) := by
  cases last : history.transactionLog.getLast? with
  | none =>
    simp only [Controller.navigate, Controller.undo, Controller.executorCalls, last]
    exact .stays fun _ _ _ mem => by rw [last] at mem; cases mem
  | some transaction =>
    obtain ⟨log, split⟩ := List.getLast?_eq_some_iff.mp last
    have shorter : history.transactionLog.length =
        (history.moveToUndone transaction).transactionLog.length + 1 := by
      rw [Controller.moveToUndone_eq, split]
      simp
    simp only [Controller.navigate, Controller.undo, Controller.executorCalls, last]
    by_cases milestone : history.transactionLog.length ∈ history.milestoneDepths
    · simp only [if_pos milestone]
      by_cases resolved : executor.undoMilestone = some true
      · simp only [crossing_eq_none.mpr resolved, if_pos resolved]
        by_cases undoes : executor.undoes transaction.record = true
        · simp only [if_pos undoes]
          refine .undoesBoth shorter rfl milestone fun _ _ other mem => ?_
          cases last.symm.trans mem
          exact undoes
        · simp only [if_neg undoes]
          exact .undoStuck fun crosses => undoes (crosses milestone resolved transaction last)
      · obtain ⟨error, failed⟩ := Option.ne_none_iff_exists'.mp (crossing_eq_none.not.mpr resolved)
        simp only [failed, if_neg resolved]
        exact .stays fun _ made => absurd made resolved
    · simp only [if_neg milestone]
      by_cases undoes : executor.undoes transaction.record = true
      · simp only [if_pos undoes]
        exact .undoes shorter rfl milestone
      · simp only [if_neg undoes]
        exact .stays fun met => absurd met milestone

lemma walks_redo (history : Controller) (executor : Executor) :
    Walks history (.redo executor) (history.navigate (.redo executor))
      (history.executorCalls (.redo executor)) := by
  cases last : history.undoneTransactionLog.getLast? with
  | none =>
    simp only [Controller.navigate, Controller.redo, Controller.executorCalls, last]
    exact .stays fun _ _ mem => by rw [last] at mem; cases mem
  | some transaction =>
    have longer : (history.moveToActive transaction).transactionLog.length =
        history.transactionLog.length + 1 := by
      rw [Controller.moveToActive_eq, Controller.moveToUndone_eq]
      exact List.length_append
    have same : (history.moveToActive transaction).milestoneDepths = history.milestoneDepths := rfl
    simp only [Controller.navigate, Controller.redo, Controller.executorCalls, last, longer, same]
    by_cases redoes : executor.redoes transaction.record = true
    · simp only [if_pos redoes]
      by_cases milestone : history.transactionLog.length + 1 ∈ history.milestoneDepths
      · simp only [if_pos milestone]
        by_cases resolved : executor.redoMilestone = some true
        · simp only [crossing_eq_none.mpr resolved, if_pos (And.intro milestone resolved)]
          rw [← longer] at milestone ⊢
          exact .redoesBoth longer same milestone fun _ _ _ _ => resolved
        · obtain ⟨error, failed⟩ := Option.ne_none_iff_exists'.mp (crossing_eq_none.not.mpr resolved)
          simp only [failed, if_neg (fun both => resolved (And.right both))]
          refine .redoStuck longer (longer ▸ milestone) fun crosses => resolved ?_
          exact crosses milestone transaction last redoes
      · simp only [if_neg milestone, if_neg (fun both => milestone (And.left both))]
        exact .redoes longer same (longer ▸ milestone)
    · simp only [if_neg redoes]
      refine .stays fun _ other mem made => ?_
      cases last.symm.trans mem
      exact absurd made redoes

lemma walks (history : Controller) (navigation : Navigation) :
    Walks history navigation (history.navigate navigation) (history.executorCalls navigation) := by
  cases navigation with
  | undo executor => exact walks_undo history executor
  | redo executor => exact walks_redo history executor

/-- Whether a milestone is at a depth or below it. -/
def passed (milestones : List Nat) (milestone depth : Nat) : Nat :=
  if milestone ∈ milestones ∧ milestone ≤ depth then 1 else 0

lemma passed_succ (milestones : List Nat) (milestone depth : Nat) :
    passed milestones milestone (depth + 1) = passed milestones milestone depth +
      if depth + 1 ∈ milestones ∧ depth + 1 = milestone then 1 else 0 := by
  unfold passed
  by_cases there : depth + 1 = milestone
  · subst there
    simp
  · have same : milestone ≤ depth + 1 ↔ milestone ≤ depth := by omega
    simp [there, same]

/-- What a walk in step keeps: each milestone is undone as often as it is redone, but for those
between the two depths. -/
structure Tally (start : Controller) (walk : Controller × List ExecutorCall) : Prop where
  same : walk.1.milestoneDepths = start.milestoneDepths
  depth : (walk.1.transactionLog.length : Int) = start.transactionLog.length -
    walk.2.count .undoTransaction + walk.2.count .redoTransaction
  milestones : walk.2.countP (·.undoesMilestone) +
      milestonesUpTo start.milestoneDepths walk.1.transactionLog.length =
    walk.2.countP (·.redoesMilestone) +
      milestonesUpTo start.milestoneDepths start.transactionLog.length
  each : ∀ depth, walk.2.count (.undoMilestone depth) +
      passed start.milestoneDepths depth walk.1.transactionLog.length =
    walk.2.count (.redoMilestone depth) +
      passed start.milestoneDepths depth start.transactionLog.length

lemma Tally.inStep {walk : Controller × List ExecutorCall} (tally : Tally start walk) :
    InStep start walk := by
  refine ⟨tally.depth, ?_, fun depth => ?_⟩
  · have sums := tally.milestones
    rw [milestonesBetween_sub]
    omega
  · have sums := tally.each depth
    have most : passed start.milestoneDepths depth start.transactionLog.length ≤ 1 := by
      unfold passed
      split <;> omega
    omega

lemma Tally.trans (tally : Tally start (history, calls)) (later : Tally history (next, more)) :
    Tally start (next, calls ++ more) := by
  obtain ⟨same, depth, milestones, each⟩ := tally
  obtain ⟨laterSame, laterDepth, laterMilestones, laterEach⟩ := later
  dsimp only at same depth milestones each laterSame laterDepth laterMilestones laterEach
  rw [same] at laterSame laterMilestones laterEach
  refine ⟨laterSame, ?_, ?_, fun milestone => ?_⟩
  · simp only [List.count_append]
    omega
  · simp only [List.countP_append]
    omega
  · have first := each milestone
    have second := laterEach milestone
    simp only [List.count_append]
    omega

/-- A call that is not rejected between its two executor calls is in step. -/
lemma Walks.tally (walks : Walks history navigation next more)
    (crosses : history.Crosses navigation) : Tally history (next, more) := by
  have upTo (depth : Nat) := milestonesBetween_succ history.milestoneDepths (Nat.zero_le depth)
  have pass := passed_succ history.milestoneDepths
  cases walks with
  | stays => exact ⟨rfl, by simp, by simp, by simp⟩
  | undoes shorter same plain =>
    rw [shorter] at plain
    refine ⟨same, by simp; omega, ?_, fun milestone => ?_⟩
    · rw [shorter, milestonesUpTo, milestonesUpTo, upTo, if_neg plain]
      rfl
    · rw [shorter, pass, if_neg (fun both => plain both.1)]
      simp
  | undoesBoth shorter same crossed both =>
    rw [shorter] at crossed ⊢
    refine ⟨same, by simp; omega, ?_, fun milestone => ?_⟩
    · rw [shorter, milestonesUpTo, milestonesUpTo, upTo, if_pos crossed]
      change 1 + milestonesBetween _ 0 next.transactionLog.length = 0 + (_ + 1)
      omega
    · simp [shorter, pass, crossed, List.count_cons]
      omega
  | undoStuck stuck | redoStuck longer milestone stuck => exact absurd crosses stuck
  | redoes longer same plain =>
    rw [longer] at plain
    refine ⟨same, by simp; omega, ?_, fun milestone => ?_⟩
    · simp only [longer, milestonesUpTo, upTo, if_neg plain]
      rfl
    · simp [longer, pass, plain]
  | redoesBoth longer same crossed both =>
    rw [longer] at crossed ⊢
    refine ⟨same, by simp; omega, ?_, fun milestone => ?_⟩
    · simp only [longer, milestonesUpTo, upTo, if_pos crossed]
      change 0 + (_ + 1) = 1 + _
      omega
    · simp [longer, pass, crossed, List.count_cons]
      omega

lemma Walks.crosses (walks : Walks history navigation next more)
    (same : history.milestoneDepths = start.milestoneDepths) (before : InStep start (history, calls))
    (after : InStep start (next, calls ++ more)) : history.Crosses navigation := by
  have first := before.milestones
  have second := after.milestones
  rw [milestonesBetween_sub] at first second
  simp only [List.countP_append] at first second
  cases walks with
  | stays crosses => exact crosses
  | undoes shorter kept plain => exact fun met => absurd met plain
  | undoesBoth shorter kept crossed crosses => exact crosses
  | undoStuck stuck =>
    change ((_ + 1 : Nat) : Int) - ((_ + 0 : Nat) : Int) = _ at second
    omega
  | redoes longer kept plain => exact fun met => absurd (longer ▸ met) plain
  | redoesBoth longer kept crossed crosses => exact crosses
  | redoStuck longer milestone stuck =>
    have sums := milestonesBetween_succ history.milestoneDepths
      (Nat.zero_le history.transactionLog.length)
    rw [longer] at second milestone
    rw [if_pos milestone, same] at sums
    change ((_ + 0 : Nat) : Int) - ((_ + 0 : Nat) : Int) = _ at second
    unfold milestonesUpTo at first second
    omega

lemma walk_concat (start : Controller) (before : List Navigation) (navigation : Navigation) :
    start.walk (before ++ [navigation]) = Controller.walkStep (start.walk before) navigation :=
  List.foldl_concat ..

lemma walk_milestoneDepths (start : Controller) (navigations : List Navigation) :
    (start.walk navigations).1.milestoneDepths = start.milestoneDepths := by
  induction navigations using List.reverseRecOn with
  | nil => rfl
  | append_singleton before navigation ih =>
    rw [walk_concat, ← ih]
    cases navigation with
    | undo executor =>
      rcases (start.walk before).1.undo_cases executor with same | ⟨transaction, _, moved⟩
      · exact congrArg Controller.milestoneDepths same
      · exact (congrArg Controller.milestoneDepths moved).trans rfl
    | redo executor =>
      rcases (start.walk before).1.redo_cases executor with same | ⟨transaction, _, moved⟩
      · exact congrArg Controller.milestoneDepths same
      · exact (congrArg Controller.milestoneDepths moved).trans rfl

lemma walk_tally {navigations : List Navigation}
    (crosses : ∀ before navigation after, navigations = before ++ navigation :: after →
      (start.walk before).1.Crosses navigation) : Tally start (start.walk navigations) := by
  induction navigations using List.reverseRecOn with
  | nil => exact ⟨rfl, by simp [Controller.walk], by simp [Controller.walk], by simp [Controller.walk]⟩
  | append_singleton before navigation ih =>
    have tally := ih fun first other after split => crosses first other (after ++ [navigation])
      (by rw [split, List.append_assoc]; rfl)
    rw [walk_concat]
    exact tally.trans ((walks _ navigation).tally (crosses before navigation [] rfl))

end Steps

/-- After each undo and redo the executor has done what the controller shows, exactly if no call is
rejected between the two executor calls that cross a milestone. -/
theorem history_and_executor_in_step (start : Controller) (navigations : List Navigation) :
    (∀ before, before <+: navigations → InStep start (start.walk before)) ↔
      ∀ before navigation after, navigations = before ++ navigation :: after →
        (start.walk before).1.Crosses navigation := by
  constructor
  · intro inStep before navigation after split
    have first := inStep before ⟨navigation :: after, split.symm⟩
    have second := inStep (before ++ [navigation]) ⟨after, by rw [split, List.append_assoc]; rfl⟩
    rw [walk_concat] at second
    exact (walks _ navigation).crosses (walk_milestoneDepths start before) first second
  · rintro crosses before ⟨rest, rfl⟩
    refine (walk_tally fun first navigation after split => ?_).inStep
    exact crosses first navigation (after ++ rest) (by rw [split, List.append_assoc]; rfl)

/-- One transaction with a milestone, and an undo whose milestone resolves and whose transaction is
rejected, made twice: the milestone is undone twice. -/
theorem milestone_undone_twice :
    let start := Controller.initial.recordLocalMutation.recordMilestone
    let rejected := Navigation.undo { Executor.succeeding with undoLocal := false }
    start.milestoneDepths = [1] ∧
      (start.walk [rejected, rejected]).2 = [.undoMilestone 1, .undoMilestone 1] ∧
      (start.walk [rejected, rejected]).1.transactionLog.length = 1 ∧
      ¬ InStep start (start.walk [rejected, rejected]) := by
  refine ⟨rfl, rfl, rfl, fun inStep => ?_⟩
  exact absurd (inStep.once 1) (by decide)

end OmegaEdit.EditorHistory
