import OmegaEdit.Library.Threads

/-! A scoped session handle and the remote objects that go through it. Each method reads the
handle, awaits a remote call and then goes on, so other calls may run in between. Create calls
and subscriptions may fail, destroy calls succeed. Viewports and subscription managers are
numbered in the order of their creation; the handle starts as `openFile` returns it. -/
namespace OmegaEdit.Client.ScopedSession
open Threads

structure Handle where
  disposed : Bool
  viewportId : Nat
  subscriptions : Option Nat
  /-- For each viewport that was created, whether it has been destroyed. -/
  viewports : List Bool
  /-- For each manager that was obtained, whether it has been cancelled. -/
  managers : List Bool
  sessionDestroyed : Bool
deriving DecidableEq, Repr

def Handle.openFile : Handle := ⟨false, 0, none, [false], [], false⟩

inductive Call where
  | startSubscriptions
  | recreateViewport
  | dispose
deriving DecidableEq, Repr

/-- Where a call is: what it awaits, and the viewports it has in its variables. -/
inductive Task where
  | begin (call : Call)
  | subscribing
  | creating (previousViewportId : Nat)
  | swapping (previousViewportId nextViewportId : Nat) (subscriptions : Option Nat)
  | discarding (nextViewportId : Nat)
  | cleaning (previousViewportId : Nat)
  | disposing (viewportId : Nat)
  | closing
  | settled
deriving DecidableEq, Repr

namespace Handle
variable (handle : Handle)

/-- The cancel call of the subscriptions, if there are any. -/
def cancelSubscriptions : Handle :=
  match handle.subscriptions with
  | some manager => { handle with managers := handle.managers.set manager true }
  | none => handle

def addManager : Handle :=
  { handle with
    managers := handle.managers ++ [false]
    subscriptions := some handle.managers.length }

def createViewport : Handle := { handle with viewports := handle.viewports ++ [false] }

def destroyViewport (viewportId : Nat) : Handle :=
  { handle with viewports := handle.viewports.set viewportId true }

def destroySession : Handle := { handle with sessionDestroyed := true }

def updateViewportId (viewportId : Nat) : Handle := { handle with viewportId := viewportId }

/-- What `dispose` does before it awaits anything. -/
def dispose : Handle := { handle.cancelSubscriptions with disposed := true, subscriptions := none }

/-- The part of a method before its first await. -/
def enter : Call → Handle × Task
  | .startSubscriptions => (handle.cancelSubscriptions, .subscribing)
  | .recreateViewport => (handle, .creating handle.viewportId)
  | .dispose => (handle.dispose, .disposing handle.viewportId)

end Handle

/-- The next step of a call: what it awaits succeeds or fails. -/
def advance (handle : Handle) (task : Task) (succeeds : Bool) : Option (Handle × Task) :=
  match task, succeeds with
  | .begin call, _ => some (if handle.disposed then (handle, .settled) else handle.enter call)
  | .subscribing, true => some (handle.addManager, .settled)
  | .subscribing, false => some (handle, .settled)
  | .creating previous, true =>
    some (handle.createViewport, .swapping previous handle.viewports.length handle.subscriptions)
  | .creating _, false => some (handle, .settled)
  | .swapping previous next _, true => some (handle.updateViewportId next, .cleaning previous)
  | .swapping _ next (some _), false => some (handle, .discarding next)
  | .swapping _ _ none, false => none
  | .discarding next, _ => some (handle.destroyViewport next, .settled)
  | .cleaning previous, _ => some (handle.destroyViewport previous, .settled)
  | .disposing viewportId, _ => some (handle.destroyViewport viewportId, .closing)
  | .closing, _ => some (handle.destroySession, .settled)
  | .settled, _ => none

abbrev Scope := System Handle Task

def Scope.start : Scope := ⟨.openFile, []⟩

def step (scope : Scope) (event : Event Call Bool) : Except Unit (Scope × Unit) :=
  Threads.step Task.begin advance scope event

/-- A viewport swap that has not reached the handle yet. -/
def Task.swaps : Task → Bool
  | creating _ => true
  | swapping _ _ _ => true
  | _ => false

/-- What must not be under way when a method is entered on a handle that is not disposed. -/
def Task.disturbs : Call → Task → Bool
  | .startSubscriptions, task => task = .subscribing
  | .recreateViewport, task => task.swaps
  | .dispose, task => task = .subscribing || task.swaps

/-- A method is entered only when nothing that it would run into is under way. -/
def Careful (scope : Scope) : Event Call Bool → Prop
  | .advance index _ => ∀ call, scope.tasks[index]? = some (.begin call) →
    scope.shared.disposed = false → ∀ task ∈ scope.tasks, task.disturbs call = false
  | .spawn _ => True

/-- The method that a call has still to enter. -/
def Task.entered : Task → Option Call
  | begin call => some call
  | _ => none

/-- The viewport that a call is going to hand over or to destroy. -/
def Task.marks : Task → Option Nat
  | swapping _ next _ => some next
  | discarding next => some next
  | cleaning previous => some previous
  | _ => none

/-- What a call can rely on while it waits. -/
structure Fits (handle : Handle) (task : Task) : Prop where
  marked : ∀ viewportId, task.marks = some viewportId →
    viewportId ≠ handle.viewportId ∧ handle.viewports[viewportId]? = some false
  swap : task.swaps = true → handle.disposed = false
  creating : ∀ previous, task = .creating previous → previous = handle.viewportId
  swapping : ∀ previous next manager, task = .swapping previous next manager →
    previous = handle.viewportId
  subscribing : task = .subscribing → handle.disposed = false ∧
    ∀ manager : Nat, handle.managers[manager]? ≠ some false
  disposing : ∀ viewportId, task = .disposing viewportId →
    handle.disposed = true ∧ viewportId = handle.viewportId
  closing : task = .closing → handle.disposed = true ∧
    handle.viewports[handle.viewportId]? = some true

/-- Two calls that are under way at the same time. -/
structure Apart (task other : Task) : Prop where
  swaps : ¬ (task.swaps = true ∧ other.swaps = true)
  subscribing : ¬ (task = .subscribing ∧ other = .subscribing)
  marks : ∀ viewportId, task.marks = some viewportId → other.marks ≠ some viewportId

lemma Apart.symm {task other : Task} (apart : Apart task other) : Apart other task :=
  ⟨fun both => apart.swaps both.symm, fun both => apart.subscribing both.symm,
    fun viewportId marked other => apart.marks viewportId other marked⟩

/-- Nothing is forgotten: what is not destroyed or cancelled is named by the handle, or by a call
that is going to see to it. -/
structure Tracked (scope : Scope) : Prop where
  viewports : ∀ viewportId : Nat, scope.shared.viewports[viewportId]? = some false →
    viewportId = scope.shared.viewportId ∨ ∃ task ∈ scope.tasks, task.marks = some viewportId
  current : scope.shared.disposed = false →
    scope.shared.viewports[scope.shared.viewportId]? = some false
  known : scope.shared.viewportId < scope.shared.viewports.length
  gone : scope.shared.disposed = true →
    scope.shared.viewports[scope.shared.viewportId]? = some true ∨
      ∃ viewportId, Task.disposing viewportId ∈ scope.tasks
  session : scope.shared.disposed = true → scope.shared.sessionDestroyed = true ∨
    (∃ viewportId, Task.disposing viewportId ∈ scope.tasks) ∨ Task.closing ∈ scope.tasks
  managers : ∀ manager : Nat, scope.shared.managers[manager]? = some false →
    scope.shared.subscriptions = some manager
  detached : scope.shared.disposed = true → scope.shared.subscriptions = none

abbrev Kept := Holds Tracked Fits Apart

lemma start_tracked : Tracked .start where
  viewports := by
    intro viewportId live
    rcases viewportId with _ | viewportId
    · exact .inl rfl
    · cases live
  current := fun _ => rfl
  known := Nat.zero_lt_one
  gone := nofun
  session := nofun
  managers := nofun
  detached := nofun

section Steps
variable {scope : Scope} {index : Nat} {task moved : Task} {handle : Handle}

lemma mem_set_of_ne {other : Task} (found : scope.tasks[index]? = some task)
    (member : other ∈ scope.tasks) (differs : other ≠ task) : other ∈ scope.tasks.set index moved := by
  obtain ⟨place, there⟩ := List.mem_iff_getElem?.mp member
  have apart : index ≠ place := by
    rintro rfl
    exact differs (Option.some.inj (there.symm.trans found))
  exact List.mem_of_getElem? ((List.getElem?_set_ne apart).trans there)

lemma moved_mem (found : scope.tasks[index]? = some task) : moved ∈ scope.tasks.set index moved :=
  List.mem_set (List.getElem?_eq_some_iff.mp found).1 moved

/-- What a step of a call has to leave behind. -/
abbrev Leaves := Keeps Tracked Fits Apart

/-- A call that neither swaps nor subscribes and has no viewport to see to. -/
lemma Apart.idle {other : Task} (swaps : moved.swaps = false) (subscribing : moved ≠ .subscribing)
    (marks : moved.marks = none) : Apart moved other :=
  ⟨fun both => absurd (swaps.symm.trans both.1) (by decide), fun both => subscribing both.1,
    fun _ marked => nomatch marks.symm.trans marked⟩

lemma Fits.settled : Fits handle .settled := ⟨nofun, nofun, nofun, nofun, nofun, nofun, nofun⟩

/-- A live viewport is the one of the handle, or a call still has to see to it. -/
def Watched (scope : Scope) (task moved : Task) (handle : Handle) : Prop :=
  ∀ viewportId : Nat, handle.viewports[viewportId]? = some false →
    viewportId = handle.viewportId ∨ moved.marks = some viewportId ∨
      ∃ other ∈ scope.tasks, other ≠ task ∧ other.marks = some viewportId

/-- The handle after the step: the objects that the call has to do with, and the rest as before. -/
lemma tracked_advance (found : scope.tasks[index]? = some task)
    (viewports : Watched scope task moved handle)
    (current : handle.disposed = false → handle.viewports[handle.viewportId]? = some false)
    (known : handle.viewportId < handle.viewports.length)
    (gone : handle.disposed = true → handle.viewports[handle.viewportId]? = some true ∨
      (∃ viewportId, moved = .disposing viewportId) ∨
        ∃ viewportId, Task.disposing viewportId ∈ scope.tasks ∧ .disposing viewportId ≠ task)
    (session : handle.disposed = true → handle.sessionDestroyed = true ∨
      (∃ viewportId, moved = .disposing viewportId) ∨ moved = .closing ∨
        (∃ viewportId, Task.disposing viewportId ∈ scope.tasks ∧ .disposing viewportId ≠ task) ∨
        (Task.closing ∈ scope.tasks ∧ Task.closing ≠ task))
    (managers : ∀ manager : Nat, handle.managers[manager]? = some false →
      handle.subscriptions = some manager)
    (detached : handle.disposed = true → handle.subscriptions = none) :
    Tracked ⟨handle, scope.tasks.set index moved⟩ := by
  refine ⟨?_, current, known, ?_, ?_, managers, detached⟩
  · intro viewportId live
    rcases viewports viewportId live with here | marked | ⟨other, member, differs, marked⟩
    · exact .inl here
    · exact .inr ⟨moved, moved_mem found, marked⟩
    · exact .inr ⟨other, mem_set_of_ne found member differs, marked⟩
  · intro disposed
    rcases gone disposed with gone | ⟨viewportId, rfl⟩ | ⟨viewportId, member, differs⟩
    · exact .inl gone
    · exact .inr ⟨viewportId, moved_mem found⟩
    · exact .inr ⟨viewportId, mem_set_of_ne found member differs⟩
  · intro disposed
    rcases session disposed with gone | ⟨viewportId, rfl⟩ | rfl | ⟨viewportId, member, differs⟩ |
      ⟨member, differs⟩
    · exact .inl gone
    · exact .inr (.inl ⟨viewportId, moved_mem found⟩)
    · exact .inr (.inr (moved_mem found))
    · exact .inr (.inl ⟨viewportId, mem_set_of_ne found member differs⟩)
    · exact .inr (.inr (mem_set_of_ne found member differs))

/-- A step of a call that is not about the disposal, on a handle with the same viewport. -/
lemma Tracked.aside (tracked : Tracked scope) (found : scope.tasks[index]? = some task)
    (disposing : ∀ viewportId, task ≠ .disposing viewportId) (closing : task ≠ .closing)
    (same : handle.disposed = scope.shared.disposed)
    (destroyed : handle.sessionDestroyed = scope.shared.sessionDestroyed)
    (state : handle.viewports[handle.viewportId]? =
      scope.shared.viewports[scope.shared.viewportId]?)
    (viewports : Watched scope task moved handle)
    (managers : ∀ manager : Nat, handle.managers[manager]? = some false →
      handle.subscriptions = some manager)
    (detached : handle.disposed = true → handle.subscriptions = none) :
    Tracked ⟨handle, scope.tasks.set index moved⟩ := by
  have there : scope.shared.viewports[scope.shared.viewportId]? ≠ none := by
    rw [ne_eq, List.getElem?_eq_none_iff]
    exact not_le.mpr tracked.known
  refine tracked_advance found viewports ?_ ?_ ?_ ?_ managers detached
  · intro open_
    rw [state]
    exact tracked.current (same.symm.trans open_)
  · rw [← state] at there
    exact List.getElem?_eq_some_iff.mp (Option.ne_none_iff_exists'.mp there).choose_spec |>.1
  · intro disposed
    rw [state]
    rcases tracked.gone (same.symm.trans disposed) with gone | ⟨viewportId, member⟩
    · exact .inl gone
    · exact .inr (.inr ⟨viewportId, member, fun same => disposing viewportId same.symm⟩)
  · intro disposed
    rw [destroyed]
    rcases tracked.session (same.symm.trans disposed) with gone | ⟨viewportId, member⟩ | member
    · exact .inl gone
    · exact .inr (.inr (.inr (.inl
        ⟨viewportId, member, fun same => disposing viewportId same.symm⟩)))
    · exact .inr (.inr (.inr (.inr ⟨member, fun same => closing same.symm⟩)))

/-- The viewports of a handle that a call without a mark leaves alone. -/
lemma Tracked.marked (tracked : Tracked scope) (unmarked : task.marks = none) :
    Watched scope task moved scope.shared := by
  intro viewportId live
  rcases tracked.viewports viewportId live with here | ⟨other, member, marked⟩
  · exact .inl here
  · refine .inr (.inr ⟨other, member, ?_, marked⟩)
    rintro rfl
    cases unmarked.symm.trans marked

/-- The handle stays, and the call is over or waits without holding anything new. -/
lemma leaves_idle (kept : Kept scope) (found : scope.tasks[index]? = some task)
    (disposing : ∀ viewportId, task ≠ .disposing viewportId) (closing : task ≠ .closing)
    (unmarked : task.marks = none) : Leaves scope index scope.shared .settled := by
  refine kept.keeps found (kept.whole.aside found disposing closing rfl rfl rfl
    (kept.whole.marked unmarked) kept.whole.managers kept.whole.detached) Fits.settled ?_
  intro other _ fits _
  exact ⟨fits, .idle rfl nofun rfl⟩

lemma getElem?_cancelSubscriptions (tracked : Tracked scope) (manager : Nat) :
    scope.shared.cancelSubscriptions.managers[manager]? ≠ some false := by
  intro live
  rw [Handle.cancelSubscriptions] at live
  split at live
  · next current subscribed =>
    by_cases same : current = manager
    · subst same
      rw [List.getElem?_set_self'] at live
      obtain ⟨_, _, flag⟩ := Option.map_eq_some_iff.mp live
      cases flag
    · rw [List.getElem?_set_ne same] at live
      exact same (Option.some.inj (subscribed.symm.trans (tracked.managers manager live)))
  · next none => cases none.symm.trans (tracked.managers manager live)

lemma cancelSubscriptions_fields (handle : Handle) :
    handle.cancelSubscriptions.disposed = handle.disposed ∧
      handle.cancelSubscriptions.viewportId = handle.viewportId ∧
      handle.cancelSubscriptions.subscriptions = handle.subscriptions ∧
      handle.cancelSubscriptions.viewports = handle.viewports ∧
      handle.cancelSubscriptions.sessionDestroyed = handle.sessionDestroyed := by
  rw [Handle.cancelSubscriptions]
  split <;> exact ⟨rfl, rfl, rfl, rfl, rfl⟩

lemma Fits.transfer {other : Task} {before : Handle} (fits : Fits before other)
    (marked : ∀ viewportId, other.marks = some viewportId →
      before.viewports[viewportId]? = some false → handle.viewports[viewportId]? = some false)
    (destroyed : before.viewports[before.viewportId]? = some true →
      handle.viewports[before.viewportId]? = some true)
    (named : handle.viewportId = before.viewportId)
    (disposed : handle.disposed = before.disposed)
    (managers : other = .subscribing → ∀ manager : Nat, handle.managers[manager]? ≠ some false) :
    Fits handle other := by
  refine ⟨?_, ?_, ?_, ?_, ?_, ?_, ?_⟩
  · intro viewportId marks
    obtain ⟨differs, live⟩ := fits.marked viewportId marks
    rw [named]
    exact ⟨differs, marked viewportId marks live⟩
  · rw [disposed]
    exact fits.swap
  · rw [named]
    exact fits.creating
  · rw [named]
    exact fits.swapping
  · rw [disposed]
    exact fun subscribing => ⟨(fits.subscribing subscribing).1, managers subscribing⟩
  · rw [disposed, named]
    exact fits.disposing
  · rw [disposed, named]
    exact fun closing => ⟨(fits.closing closing).1, destroyed (fits.closing closing).2⟩

section Leaving
variable (kept : Kept scope)
include kept

lemma leaves_startSubscriptions (found : scope.tasks[index]? = some (.begin .startSubscriptions))
    (open_ : scope.shared.disposed = false)
    (careful : ∀ task ∈ scope.tasks, task.disturbs .startSubscriptions = false) :
    Leaves scope index scope.shared.cancelSubscriptions .subscribing := by
  obtain ⟨disposed, named, _, viewports, session⟩ :=
    cancelSubscriptions_fields scope.shared
  have cancelled := getElem?_cancelSubscriptions kept.whole
  refine kept.keeps found
    (kept.whole.aside found nofun nofun disposed session (by rw [viewports, named]) ?_ ?_ ?_) ?_ ?_
  · intro viewportId live
    rw [viewports] at live
    rw [named]
    exact kept.whole.marked rfl viewportId live
  · exact fun manager live => absurd live (cancelled manager)
  · rw [disposed, open_]
    exact nofun
  · exact ⟨nofun, nofun, nofun, nofun, fun _ => ⟨disposed.trans open_, cancelled⟩, nofun, nofun⟩
  · intro other member fits _
    refine ⟨fits.transfer ?_ ?_ named disposed fun _ => cancelled, nofun, ?_, nofun⟩
    · exact fun viewportId _ live => viewports ▸ live
    · exact fun destroyed => viewports ▸ destroyed
    · rintro ⟨_, rfl⟩
      cases careful _ member

lemma leaves_recreateViewport (found : scope.tasks[index]? = some (.begin .recreateViewport))
    (open_ : scope.shared.disposed = false)
    (careful : ∀ task ∈ scope.tasks, task.disturbs .recreateViewport = false) :
    Leaves scope index scope.shared (.creating scope.shared.viewportId) := by
  refine kept.keeps found (kept.whole.aside found nofun nofun rfl rfl rfl (kept.whole.marked rfl)
    kept.whole.managers kept.whole.detached) ?_ ?_
  · refine ⟨nofun, fun _ => open_, ?_, nofun, nofun, nofun, nofun⟩
    rintro _ ⟨⟩
    rfl
  · intro other member fits _
    refine ⟨fits, ?_, nofun, nofun⟩
    rintro ⟨_, swaps⟩
    cases swaps.symm.trans (careful _ member)

lemma leaves_dispose (found : scope.tasks[index]? = some (.begin .dispose))
    (open_ : scope.shared.disposed = false)
    (careful : ∀ task ∈ scope.tasks, task.disturbs .dispose = false) :
    Leaves scope index scope.shared.dispose (.disposing scope.shared.viewportId) := by
  obtain ⟨_, named, _, viewports, session⟩ := cancelSubscriptions_fields scope.shared
  have cancelled := getElem?_cancelSubscriptions kept.whole
  refine kept.keeps found (tracked_advance found ?_ nofun ?_ (fun _ => .inr (.inl ⟨_, rfl⟩))
    (fun _ => .inr (.inl ⟨_, rfl⟩)) ?_ (fun _ => rfl)) ?_ ?_
  · intro viewportId live
    simp only [Handle.dispose, viewports, named] at live ⊢
    exact kept.whole.marked rfl viewportId live
  · simp only [Handle.dispose, viewports, named]
    exact kept.whole.known
  · exact fun manager live => absurd live (cancelled manager)
  · refine ⟨nofun, nofun, nofun, nofun, nofun, ?_, nofun⟩
    rintro _ ⟨⟩
    exact ⟨rfl, named.symm⟩
  · intro other member fits _
    have clear := careful other member
    simp only [Task.disturbs, Bool.or_eq_false_iff, decide_eq_false_iff_not] at clear
    refine ⟨⟨?_, ?_, ?_, ?_, ?_, ?_, ?_⟩, .idle rfl nofun rfl⟩
    · simp only [Handle.dispose, viewports, named]
      exact fits.marked
    · exact fun swaps => nomatch clear.2.symm.trans swaps
    · rintro previous rfl
      cases clear.2
    · rintro previous next manager rfl
      cases clear.2
    · exact fun subscribing => absurd subscribing clear.1
    · intro viewportId disposing
      cases open_.symm.trans (fits.disposing viewportId disposing).1
    · intro closing
      cases open_.symm.trans (fits.closing closing).1

lemma leaves_subscribed (found : scope.tasks[index]? = some .subscribing) :
    Leaves scope index scope.shared.addManager .settled := by
  obtain ⟨open_, cancelled⟩ := (kept.each index _ found).subscribing rfl
  refine kept.keeps found (kept.whole.aside found nofun nofun rfl rfl rfl (kept.whole.marked rfl) ?_ ?_)
    Fits.settled ?_
  · intro manager live
    rcases getElem?_snoc live with old | ⟨rfl, _⟩
    · exact absurd old (cancelled manager)
    · rfl
  · intro disposed
    cases open_.symm.trans disposed
  · intro other _ fits beside
    refine ⟨fits.transfer (fun _ _ live => live) id rfl rfl fun subscribing => ?_, .idle rfl nofun rfl⟩
    exact absurd ⟨rfl, subscribing⟩ beside.subscribing

lemma leaves_created {previous : Nat} (found : scope.tasks[index]? = some (.creating previous)) :
    Leaves scope index scope.shared.createViewport
      (.swapping previous scope.shared.viewports.length scope.shared.subscriptions) := by
  have fits := kept.each index _ found
  have old {viewportId : Nat} {destroyed : Bool}
      (there : scope.shared.viewports[viewportId]? = some destroyed) :
      scope.shared.createViewport.viewports[viewportId]? = some destroyed :=
    (List.getElem?_append_left (List.getElem?_eq_some_iff.mp there).1).trans there
  refine kept.keeps found (kept.whole.aside found nofun nofun rfl rfl
    (List.getElem?_append_left kept.whole.known) ?_ kept.whole.managers kept.whole.detached) ?_ ?_
  · intro viewportId live
    rcases getElem?_snoc live with before | ⟨rfl, _⟩
    · exact kept.whole.marked rfl viewportId before
    · exact .inr (.inl rfl)
  · refine ⟨?_, fun _ => fits.swap rfl, nofun, ?_, nofun, nofun, nofun⟩
    · rintro _ ⟨⟩
      exact ⟨(ne_of_lt kept.whole.known).symm, List.getElem?_concat_length⟩
    · rintro _ _ _ ⟨⟩
      exact fits.creating previous rfl
  · intro other _ fitsOther beside
    refine ⟨fitsOther.transfer (fun _ _ => old) old rfl rfl fun subscribing =>
      (fitsOther.subscribing subscribing).2, beside.swaps, nofun, ?_⟩
    -- the number of the new viewport is not in use
    rintro _ ⟨⟩ marked
    have live := (fitsOther.marked _ marked).2
    exact lt_irrefl _ (List.getElem?_eq_some_iff.mp live).1

lemma leaves_swapped {previous next : Nat} {subscriptions : Option Nat}
    (found : scope.tasks[index]? = some (.swapping previous next subscriptions)) :
    Leaves scope index (scope.shared.updateViewportId next) (.cleaning previous) := by
  have fits := kept.each index _ found
  have open_ := fits.swap rfl
  have current := kept.whole.current open_
  obtain ⟨differs, live⟩ := fits.marked next rfl
  obtain rfl : previous = scope.shared.viewportId := fits.swapping _ _ _ rfl
  refine kept.keeps found (kept.whole.aside found nofun nofun rfl rfl (live.trans current.symm) ?_
    kept.whole.managers kept.whole.detached) ?_ ?_
  · intro viewportId alive
    rcases kept.whole.viewports viewportId alive with rfl | ⟨other, member, marked⟩
    · exact .inr (.inl rfl)
    · by_cases own : other = .swapping scope.shared.viewportId next subscriptions
      · subst own
        exact .inl (Option.some.inj marked).symm
      · exact .inr (.inr ⟨other, member, own, marked⟩)
  · refine ⟨?_, nofun, nofun, nofun, nofun, nofun, nofun⟩
    rintro _ ⟨⟩
    exact ⟨differs.symm, current⟩
  · intro other _ fitsOther beside
    refine ⟨⟨?_, fitsOther.swap, ?_, ?_, fitsOther.subscribing, ?_, ?_⟩, nofun, nofun, ?_⟩
    · intro viewportId marked
      refine ⟨?_, (fitsOther.marked viewportId marked).2⟩
      rintro rfl
      exact beside.marks _ rfl marked
    · rintro _ rfl
      exact absurd ⟨rfl, rfl⟩ beside.swaps
    · rintro _ _ _ rfl
      exact absurd ⟨rfl, rfl⟩ beside.swaps
    · intro viewportId disposing
      cases open_.symm.trans (fitsOther.disposing viewportId disposing).1
    · intro closing
      cases open_.symm.trans (fitsOther.closing closing).1
    · rintro _ ⟨⟩ marked
      exact (fitsOther.marked _ marked).1 rfl

lemma leaves_swapFailed {previous next : Nat} {subscriptions : Option Nat}
    (found : scope.tasks[index]? = some (.swapping previous next subscriptions)) :
    Leaves scope index scope.shared (.discarding next) := by
  refine kept.keeps found
    (kept.whole.aside found nofun nofun rfl rfl rfl ?_ kept.whole.managers kept.whole.detached) ?_ ?_
  · intro viewportId alive
    rcases kept.whole.viewports viewportId alive with here | ⟨other, member, marked⟩
    · exact .inl here
    · by_cases own : other = .swapping previous next subscriptions
      · subst own
        exact .inr (.inl marked)
      · exact .inr (.inr ⟨other, member, own, marked⟩)
  · exact ⟨(kept.each index _ found).marked, nofun, nofun, nofun, nofun, nofun, nofun⟩
  · intro other _ fits beside
    exact ⟨fits, nofun, nofun, beside.marks⟩

lemma leaves_destroyed {viewportId : Nat} (found : scope.tasks[index]? = some task)
    (marked : task.marks = some viewportId) :
    Leaves scope index (scope.shared.destroyViewport viewportId) .settled := by
  have differs := ((kept.each index _ found).marked viewportId marked).1
  have disposing (viewportId : Nat) : task ≠ .disposing viewportId := by
    rintro rfl
    cases marked
  have closing : task ≠ .closing := by
    rintro rfl
    cases marked
  refine kept.keeps found (kept.whole.aside found disposing closing rfl rfl
    (List.getElem?_set_ne differs) ?_ kept.whole.managers kept.whole.detached) Fits.settled ?_
  · intro other alive
    rcases getElem?_set alive with ⟨apart, before⟩ | ⟨_, destroyed⟩
    · rcases kept.whole.viewports other before with here | ⟨holder, member, holds⟩
      · exact .inl here
      · refine .inr (.inr ⟨holder, member, ?_, holds⟩)
        rintro rfl
        exact apart (Option.some.inj (holds.symm.trans marked))
    · cases destroyed
  · intro other _ fits beside
    refine ⟨fits.transfer ?_ ?_ rfl rfl fun subscribing => (fits.subscribing subscribing).2,
      .idle rfl nofun rfl⟩
    · intro otherId marks before
      refine (List.getElem?_set_ne ?_).trans before
      rintro rfl
      exact beside.marks _ marked marks
    · exact (List.getElem?_set_ne differs).trans

lemma leaves_disposed {viewportId : Nat}
    (found : scope.tasks[index]? = some (.disposing viewportId)) :
    Leaves scope index (scope.shared.destroyViewport viewportId) .closing := by
  obtain ⟨disposed, rfl⟩ := (kept.each index _ found).disposing viewportId rfl
  have destroyed : (scope.shared.viewports.set scope.shared.viewportId true)[
      scope.shared.viewportId]? = some true := List.getElem?_set_self kept.whole.known
  refine kept.keeps found (tracked_advance found ?_ ?_ ?_ (fun _ => .inl destroyed)
    (fun _ => .inr (.inr (.inl rfl))) kept.whole.managers kept.whole.detached) ?_ ?_
  · intro other alive
    rcases getElem?_set alive with ⟨_, before⟩ | ⟨_, destroyed⟩
    · exact kept.whole.marked rfl other before
    · cases destroyed
  · intro open_
    cases disposed.symm.trans open_
  · simpa only [Handle.destroyViewport, List.length_set] using kept.whole.known
  · exact ⟨nofun, nofun, nofun, nofun, nofun, nofun, fun _ => ⟨disposed, destroyed⟩⟩
  · intro other _ fitsOther _
    refine ⟨fitsOther.transfer ?_ (fun _ => destroyed) rfl rfl fun subscribing =>
      (fitsOther.subscribing subscribing).2, .idle rfl nofun rfl⟩
    intro otherId marks before
    exact (List.getElem?_set_ne (fitsOther.marked otherId marks).1.symm).trans before

lemma leaves_closed (found : scope.tasks[index]? = some .closing) :
    Leaves scope index scope.shared.destroySession .settled := by
  obtain ⟨disposed, destroyed⟩ := (kept.each index _ found).closing rfl
  refine kept.keeps found (tracked_advance found (kept.whole.marked rfl) ?_ kept.whole.known
    (fun _ => .inl destroyed) (fun _ => .inl rfl) kept.whole.managers kept.whole.detached) Fits.settled ?_
  · intro open_
    cases disposed.symm.trans open_
  · intro other _ fitsOther _
    exact ⟨fitsOther.transfer (fun _ _ live => live) id rfl rfl fun subscribing =>
      (fitsOther.subscribing subscribing).2, .idle rfl nofun rfl⟩

lemma leaves_entered {call : Call} (found : scope.tasks[index]? = some (.begin call))
    (open_ : scope.shared.disposed = false)
    (careful : ∀ task ∈ scope.tasks, task.disturbs call = false) :
    Leaves scope index (scope.shared.enter call).1 (scope.shared.enter call).2 := by
  cases call with
  | startSubscriptions => exact leaves_startSubscriptions kept found open_ careful
  | recreateViewport => exact leaves_recreateViewport kept found open_ careful
  | dispose => exact leaves_dispose kept found open_ careful

lemma leaves_advance {succeeds : Bool} (careful : Careful scope (.advance index succeeds))
    (found : scope.tasks[index]? = some task)
    (advanced : advance scope.shared task succeeds = some (handle, moved)) :
    Leaves scope index handle moved := by
  cases task with
  | begin call =>
    cases disposed : scope.shared.disposed with
    | true =>
      simp only [advance, disposed, if_true, Option.some.injEq, Prod.mk.injEq] at advanced
      obtain ⟨rfl, rfl⟩ := advanced
      exact leaves_idle kept found nofun nofun rfl
    | false =>
      simp only [advance, disposed, Bool.false_eq_true, if_false, Option.some.injEq] at advanced
      have leaves := leaves_entered kept found disposed (careful call found disposed)
      rwa [advanced] at leaves
  | subscribing =>
    cases succeeds <;> cases advanced
    · exact leaves_idle kept found nofun nofun rfl
    · exact leaves_subscribed kept found
  | creating previous =>
    cases succeeds <;> cases advanced
    · exact leaves_idle kept found nofun nofun rfl
    · exact leaves_created kept found
  | swapping previous next subscriptions =>
    cases succeeds with
    | false =>
      cases subscriptions <;> cases advanced
      exact leaves_swapFailed kept found
    | true =>
      cases advanced
      exact leaves_swapped kept found
  | discarding next | cleaning previous =>
    cases advanced
    exact leaves_destroyed kept found rfl
  | disposing viewportId =>
    cases advanced
    exact leaves_disposed kept found
  | closing =>
    cases advanced
    exact leaves_closed kept found
  | settled => cases advanced

end Leaving

lemma Tracked.spawned (tracked : Tracked scope) (call : Call) :
    Tracked ⟨scope.shared, scope.tasks ++ [.begin call]⟩ := by
  have still {task : Task} (member : task ∈ scope.tasks) : task ∈ scope.tasks ++ [.begin call] :=
    List.mem_append_left _ member
  refine ⟨?_, tracked.current, tracked.known, ?_, ?_, tracked.managers, tracked.detached⟩
  · intro viewportId live
    rcases tracked.viewports viewportId live with here | ⟨task, member, marked⟩
    · exact .inl here
    · exact .inr ⟨task, still member, marked⟩
  · intro disposed
    rcases tracked.gone disposed with gone | ⟨viewportId, member⟩
    · exact .inl gone
    · exact .inr ⟨viewportId, still member⟩
  · intro disposed
    rcases tracked.session disposed with gone | ⟨viewportId, member⟩ | member
    · exact .inl gone
    · exact .inr (.inl ⟨viewportId, still member⟩)
    · exact .inr (.inr (still member))

lemma kept_of_reaches (reached : Transition.Reaches step Careful .start scope) : Kept scope := by
  refine Holds.reached reached Apart.symm (.empty start_tracked) ?_ ?_
  · intro system call kept _
    exact ⟨kept.whole.spawned call, ⟨nofun, nofun, nofun, nofun, nofun, nofun, nofun⟩,
      fun _ _ => .idle rfl nofun rfl⟩
  · intro system index outcome task shared moved kept careful found advanced
    exact leaves_advance kept careful found advanced

end Steps

/-- What a handle owns once no call is under way: its one viewport, or nothing after `dispose`. -/
def Handle.Clean (handle : Handle) : Prop :=
  if handle.disposed then
    (∀ destroyed ∈ handle.viewports, destroyed = true) ∧ handle.sessionDestroyed = true ∧
      ∀ cancelled ∈ handle.managers, cancelled = true
  else ∀ viewportId : Nat,
    handle.viewports[viewportId]? = some false ↔ viewportId = handle.viewportId

instance (handle : Handle) : Decidable (∀ viewportId : Nat,
    handle.viewports[viewportId]? = some false ↔ viewportId = handle.viewportId) :=
  decidable_of_iff ((∀ viewportId < handle.viewports.length,
      handle.viewports[viewportId]? = some false ↔ viewportId = handle.viewportId) ∧
    handle.viewportId < handle.viewports.length) (by
    constructor
    · rintro ⟨inside, known⟩ viewportId
      by_cases bound : viewportId < handle.viewports.length
      · exact inside viewportId bound
      · refine ⟨fun live => absurd (List.getElem?_eq_some_iff.mp live).1 bound, ?_⟩
        rintro rfl
        exact absurd known bound
    · intro only
      exact ⟨fun viewportId _ => only viewportId,
        (List.getElem?_eq_some_iff.mp ((only _).mpr rfl)).1⟩)

instance (handle : Handle) : Decidable handle.Clean :=
  inferInstanceAs (Decidable (if handle.disposed then _ else _))

/-- In every run whose methods are entered carefully, a handle leaks nothing: when all calls have
settled it owns one viewport, the one that it names, and after `dispose` nothing at all. -/
theorem settled_clean {scope : Scope} (reached : Transition.Reaches step Careful .start scope)
    (settled : ∀ task ∈ scope.tasks, task = .settled) : scope.shared.Clean := by
  obtain ⟨tracked, _, _⟩ := kept_of_reaches reached
  have unmarked {viewportId : Nat} (live : scope.shared.viewports[viewportId]? = some false) :
      viewportId = scope.shared.viewportId := by
    rcases tracked.viewports viewportId live with here | ⟨task, member, marked⟩
    · exact here
    · rw [settled task member] at marked
      cases marked
  have pendingFree {viewportId : Nat} : Task.disposing viewportId ∉ scope.tasks :=
    fun member => nomatch settled _ member
  rw [Handle.Clean]
  split
  · next disposed =>
    refine ⟨?_, ?_, ?_⟩
    · intro destroyed member
      obtain ⟨viewportId, there⟩ := List.mem_iff_getElem?.mp member
      cases destroyed with
      | true => rfl
      | false =>
        rcases tracked.gone disposed with gone | ⟨_, pending⟩
        · rw [unmarked there] at there
          cases gone.symm.trans there
        · exact absurd pending pendingFree
    · rcases tracked.session disposed with gone | ⟨_, pending⟩ | pending
      · exact gone
      · exact absurd pending pendingFree
      · cases settled _ pending
    · intro cancelled member
      obtain ⟨manager, there⟩ := List.mem_iff_getElem?.mp member
      cases cancelled with
      | true => rfl
      | false => cases (tracked.detached disposed).symm.trans (tracked.managers manager there)
  · next open_ =>
    intro viewportId
    constructor
    · exact unmarked
    · rintro rfl
      exact tracked.current (Bool.eq_false_iff.mpr open_)

instance (scope : Scope) (event : Event Call Bool) : Decidable (Careful scope event) :=
  match event with
  | .spawn _ => inferInstanceAs (Decidable True)
  | .advance index _ =>
    decidable_of_iff (∀ task ∈ scope.tasks[index]?, ∀ call ∈ task.entered,
      scope.shared.disposed = false → ∀ other ∈ scope.tasks, other.disturbs call = false) (by
      constructor
      · intro careful call found
        exact careful _ found call rfl
      · rintro careful task found call entered
        cases task <;> cases entered
        exact careful call found)

theorem settled_clean_after_two : ∃ scope : Scope, Transition.Reaches step Careful .start scope ∧
    scope.shared.Clean ∧ scope.shared.disposed = true ∧ scope.shared.viewports = [true, true] := by
  obtain ⟨scope, reached, shows⟩ := Transition.exists_reaches step Careful .start
    (fun scope => decide ((∀ task ∈ scope.tasks, task = .settled) ∧
      scope.shared.disposed = true ∧ scope.shared.viewports = [true, true]))
    [.spawn .startSubscriptions, .spawn .recreateViewport, .advance 0 true, .advance 1 true,
      .advance 0 true, .advance 1 true, .advance 1 true, .spawn .dispose, .advance 2 true,
      .advance 1 true, .advance 2 true, .advance 2 true]
    (by decide +kernel)
  obtain ⟨settled, disposed, viewports⟩ := of_decide_eq_true shows
  exact ⟨scope, reached, settled_clean reached settled, disposed, viewports⟩

/-- Two swaps in flight read the same previous viewport and destroy it twice: the viewport of the
first swap is named by nothing, and `dispose` does not destroy it either. -/
theorem overlapping_swaps_leak : ∃ scope : Scope,
    Transition.Reaches step (fun _ _ => True) .start scope ∧
      (∀ task ∈ scope.tasks, task = .settled) ∧ scope.shared.disposed = true ∧
      scope.shared.viewports = [true, false, true] ∧ ¬ scope.shared.Clean := by
  obtain ⟨scope, reached, shows⟩ := Transition.exists_reaches step (fun _ _ => True) .start
    (fun scope => decide ((∀ task ∈ scope.tasks, task = .settled) ∧
      scope.shared.disposed = true ∧ scope.shared.viewports = [true, false, true] ∧
      ¬ scope.shared.Clean))
    [.spawn .recreateViewport, .spawn .recreateViewport, .advance 0 true, .advance 1 true,
      .advance 0 true, .advance 1 true, .advance 0 true, .advance 1 true, .advance 0 true,
      .advance 1 true, .spawn .dispose, .advance 2 true, .advance 2 true, .advance 2 true]
    (by decide +kernel)
  exact ⟨scope, reached, of_decide_eq_true shows⟩

end OmegaEdit.Client.ScopedSession
