import Mathlib.Data.List.Basic
import OmegaEdit.Library.Transition

/-! The manager of a session stream and a viewport stream. Updates of the viewport are links of a
promise chain: each starts when the one before it has settled, opens a stream, and then cancels
the stream that was there when it started. What happens between two turns of the event loop is
one step; events of the streams and error handlers are left out. -/
namespace OmegaEdit.Client.Subscriptions

/-- A viewport stream that the manager opened. -/
structure Stream where
  viewportId : String
  cancelled : Bool
deriving DecidableEq, Repr

/-- How far `applyViewportId` is: it has captured the previous subscription, and then it has the
stream of `subscribeViewportEvents`. -/
inductive Phase where
  | subscribing (previous : Option Nat)
  | subscribed (previous : Option Nat) (stream : Nat)
deriving DecidableEq, Repr

structure Update where
  viewportId : String
  phase : Phase
deriving DecidableEq, Repr

/-- The variables of `manageSessionViewportSubscriptions`, the promise chain behind
`viewportUpdateTask`, the streams, and the viewport that was requested last. -/
structure Manager where
  cancelled : Bool
  activeViewportId : String
  viewportSubscription : Option Nat
  /-- The links of the chain that wait for the one in front of them. -/
  queue : List String
  running : Option Update
  /-- Whether the update that settled last went through. -/
  outcome : Option Bool
  /-- The first update went through, so the caller has the manager. -/
  returned : Bool
  sessionCancelled : Bool
  streams : List Stream
  lastRequested : Option String
deriving DecidableEq, Repr

def cancelAt (streams : List Stream) : Option Nat → List Stream
  | some stream => streams.modify stream fun stream => { stream with cancelled := true }
  | none => streams

inductive Event where
  | setViewportId (viewportId : String)
  | cancel
  /-- The update at the front of the chain starts. -/
  | begin
  /-- The subscribe call of the update resolves with a stream. -/
  | opened
  | rejected
  /-- The update goes on with its stream. -/
  | resume
deriving DecidableEq, Repr

namespace Manager

/-- The session stream is open and the update for the first viewport is queued. -/
def opening (viewportId : String) : Manager :=
  ⟨false, "", none, [viewportId], none, none, false, false, [], none⟩

variable (manager : Manager)

/-- The cancel call of a subscription, if there is one. -/
def cancelSubscription (subscription : Option Nat) : Manager :=
  { manager with streams := cancelAt manager.streams subscription }

/-- `queueViewportUpdate` returns early for the viewport that is active. -/
def shortcut (viewportId : String) : Bool :=
  !manager.cancelled && manager.viewportSubscription.isSome && manager.activeViewportId = viewportId

/-- The promise of a call follows the last link of the chain, which is its own unless it returns
early. -/
def setViewportId (viewportId : String) : Manager :=
  if manager.shortcut viewportId then { manager with lastRequested := some viewportId }
  else
    { manager with queue := manager.queue ++ [viewportId], lastRequested := some viewportId }

def cancel : Manager :=
  if manager.cancelled then manager
  else
    { manager.cancelSubscription manager.viewportSubscription with
      cancelled := true, sessionCancelled := true }

/-- The update has settled; a first update that fails takes the session stream with it. -/
def settle (succeeded : Bool) : Manager :=
  { manager with
    running := none
    outcome := some succeeded
    returned := manager.returned || succeeded
    sessionCancelled := manager.sessionCancelled || (!manager.returned && !succeeded) }

def start (viewportId : String) (rest : List String) : Manager :=
  let update := ⟨viewportId, .subscribing manager.viewportSubscription⟩
  { manager with queue := rest, running := some update }

/-- The first part of `applyViewportId`. -/
def begin_ (viewportId : String) (rest : List String) : Manager :=
  if manager.cancelled then { manager with queue := rest }.settle true
  else manager.start viewportId rest

def open_ (viewportId : String) (previous : Option Nat) : Manager :=
  { manager with
    streams := manager.streams ++ [⟨viewportId, false⟩]
    running := some ⟨viewportId, .subscribed previous manager.streams.length⟩ }

def activate (viewportId : String) (stream : Nat) : Manager :=
  { manager with viewportSubscription := some stream, activeViewportId := viewportId }

/-- The rest of `applyViewportId` after the stream is there. -/
def resume (viewportId : String) (previous : Option Nat) (stream : Nat) : Manager :=
  if manager.cancelled then (manager.cancelSubscription (some stream)).settle true
  else ((manager.activate viewportId stream).cancelSubscription previous).settle true

def step : Event → Except Unit (Manager × Unit)
  | .setViewportId viewportId =>
    if manager.returned then .ok (manager.setViewportId viewportId, ()) else .error ()
  | .cancel => if manager.returned then .ok (manager.cancel, ()) else .error ()
  | .begin =>
    match manager.running, manager.queue with
    | none, viewportId :: rest => .ok (manager.begin_ viewportId rest, ())
    | _, _ => .error ()
  | .opened =>
    match manager.running with
    | some ⟨viewportId, .subscribing previous⟩ => .ok (manager.open_ viewportId previous, ())
    | _ => .error ()
  | .rejected =>
    match manager.running with
    | some ⟨_, .subscribing _⟩ => .ok (manager.settle false, ())
    | _ => .error ()
  | .resume =>
    match manager.running with
    | some ⟨viewportId, .subscribed previous stream⟩ =>
      .ok (manager.resume viewportId previous stream, ())
    | _ => .error ()

/-- All calls have settled. -/
def Settled : Prop := manager.running = none ∧ manager.queue = []

/-- A viewport stream that is not cancelled. -/
def Live (stream : Nat) (viewportId : String) : Prop :=
  manager.streams[stream]? = some ⟨viewportId, false⟩

/-- The viewport of the last link of the chain that has not settled. -/
def pending : Option String :=
  match manager.queue.getLast? with
  | some viewportId => some viewportId
  | none => manager.running.map Update.viewportId

end Manager

/-- A request for the active viewport is not made while the last update on its way is one to another
viewport. -/
def Patient (manager : Manager) : Event → Prop
  | .setViewportId viewportId =>
    manager.shortcut viewportId = true → ∀ other ∈ manager.pending, other = viewportId
  | _ => True

instance (manager : Manager) : Decidable manager.Settled :=
  inferInstanceAs (Decidable (_ ∧ _))

instance (manager : Manager) (event : Event) : Decidable (Patient manager event) := by
  unfold Patient
  split <;> infer_instance

/-- What a step does, and when. -/
inductive Moves (manager : Manager) : Event → Manager → Prop where
  | setViewportId (viewportId : String) (returned : manager.returned = true) :
    Moves manager (.setViewportId viewportId) (manager.setViewportId viewportId)
  | cancel (returned : manager.returned = true) : Moves manager .cancel manager.cancel
  | begin {viewportId : String} {rest : List String} (idle : manager.running = none)
      (queue : manager.queue = viewportId :: rest) :
    Moves manager .begin (manager.begin_ viewportId rest)
  | opened {viewportId : String} {previous : Option Nat}
      (running : manager.running = some ⟨viewportId, .subscribing previous⟩) :
    Moves manager .opened (manager.open_ viewportId previous)
  | rejected {viewportId : String} {previous : Option Nat}
      (running : manager.running = some ⟨viewportId, .subscribing previous⟩) :
    Moves manager .rejected (manager.settle false)
  | resume {viewportId : String} {previous : Option Nat} {stream : Nat}
      (running : manager.running = some ⟨viewportId, .subscribed previous stream⟩) :
    Moves manager .resume (manager.resume viewportId previous stream)

lemma step_moves {manager next : Manager} {event : Event} {answer : Unit}
    (stepped : manager.step event = .ok (next, answer)) : Moves manager event next := by
  cases event with
  | setViewportId viewportId =>
    simp only [Manager.step] at stepped
    split at stepped
    · next returned =>
      cases stepped
      exact .setViewportId viewportId returned
    · cases stepped
  | cancel =>
    simp only [Manager.step] at stepped
    split at stepped
    · next returned =>
      cases stepped
      exact .cancel returned
    · cases stepped
  | begin =>
    simp only [Manager.step] at stepped
    split at stepped
    · next idle queue =>
      cases stepped
      exact .begin idle queue
    · cases stepped
  | opened =>
    simp only [Manager.step] at stepped
    split at stepped
    · next running =>
      cases stepped
      exact .opened running
    · cases stepped
  | rejected =>
    simp only [Manager.step] at stepped
    split at stepped
    · next running =>
      cases stepped
      exact .rejected running
    · cases stepped
  | resume =>
    simp only [Manager.step] at stepped
    split at stepped
    · next running =>
      cases stepped
      exact .resume running
    · cases stepped

section Invariant
variable {manager next : Manager} {viewportId : String} {previous : Option Nat} {stream : Nat}

/-- The update on its way has captured the subscription that stands, and the streams that are not
cancelled are the one subscribed to and the one on its way. -/
structure Orderly (manager : Manager) : Prop where
  waiting : ∀ viewportId previous, manager.running = some ⟨viewportId, .subscribing previous⟩ →
    previous = manager.viewportSubscription
  holding : ∀ viewportId previous stream,
    manager.running = some ⟨viewportId, .subscribed previous stream⟩ →
    previous = manager.viewportSubscription ∧ manager.Live stream viewportId ∧
      manager.viewportSubscription ≠ some stream
  current : ∀ stream, manager.viewportSubscription = some stream →
    manager.streams[stream]? = some ⟨manager.activeViewportId, manager.cancelled⟩
  live : ∀ stream viewportId, manager.Live stream viewportId →
    (manager.cancelled = false ∧ manager.viewportSubscription = some stream) ∨
      ∃ previous, manager.running = some ⟨viewportId, .subscribed previous stream⟩
  session : manager.sessionCancelled = true ↔ manager.cancelled = true ∨
    (manager.returned = false ∧ manager.outcome = some false)
  present : manager.returned = true → manager.viewportSubscription.isSome = true
  handed : manager.cancelled = true → manager.returned = true
  first : manager.returned = false → manager.Settled ∨
    (manager.outcome = none ∧ (manager.running = none ∨ manager.queue = []) ∧
      manager.queue.length ≤ 1)

lemma opening_orderly (viewportId : String) : Orderly (.opening viewportId) where
  waiting := nofun
  holding := nofun
  current := nofun
  live := nofun
  session := by simp [Manager.opening]
  present := nofun
  handed := nofun
  first := fun _ => .inr ⟨rfl, .inl rfl, le_refl 1⟩

lemma Orderly.setViewportId (orderly : Orderly manager) (returned : manager.returned = true)
    (viewportId : String) : Orderly (manager.setViewportId viewportId) := by
  rw [Manager.setViewportId]
  split
  · exact ⟨orderly.waiting, orderly.holding, orderly.current, orderly.live, orderly.session,
      orderly.present, orderly.handed, orderly.first⟩
  · exact ⟨orderly.waiting, orderly.holding, orderly.current, orderly.live, orderly.session,
      orderly.present, orderly.handed, fun fresh => nomatch returned.symm.trans fresh⟩

lemma live_cancelSubscription :
    (manager.cancelSubscription previous).Live stream viewportId ↔
      previous ≠ some stream ∧ manager.Live stream viewportId := by
  cases previous with
  | none => simp [Manager.cancelSubscription, cancelAt, Manager.Live]
  | some other =>
    simp only [Manager.Live, Manager.cancelSubscription, cancelAt, List.getElem?_modify]
    by_cases same : other = stream
    · subst same
      cases manager.streams[other]? <;> simp
    · cases manager.streams[stream]? <;> simp [same]

lemma getElem?_cancelAt {streams : List Stream} (other : previous ≠ some stream) :
    (cancelAt streams previous)[stream]? = streams[stream]? := by
  cases previous with
  | none => rfl
  | some prior =>
    have differs : prior ≠ stream := fun same => other (by rw [same])
    simp [cancelAt, differs]

section Moves
variable (orderly : Orderly manager)
include orderly

lemma Orderly.cancel (returned : manager.returned = true) : Orderly manager.cancel := by
  rw [Manager.cancel]
  split
  · exact orderly
  · constructor
    · exact orderly.waiting
    · intro viewportId previous stream held
      obtain ⟨captured, live, other⟩ := orderly.holding viewportId previous stream held
      exact ⟨captured, live_cancelSubscription.mpr ⟨other, live⟩, other⟩
    · intro stream (there : manager.viewportSubscription = some stream)
      have standing := orderly.current stream there
      simp [Manager.cancelSubscription, cancelAt, there, standing]
    · intro stream viewportId live
      obtain ⟨other, live⟩ := live_cancelSubscription.mp live
      rcases orderly.live stream viewportId live with ⟨_, there⟩ | held
      · exact absurd there other
      · exact .inr held
    · simp
    · exact orderly.present
    · exact fun _ => returned
    · exact fun fresh => nomatch returned.symm.trans fresh

lemma Orderly.settle {succeeded : Bool} (free : ∀ viewportId previous stream,
      manager.running ≠ some ⟨viewportId, .subscribed previous stream⟩)
    (alone : manager.returned = false → manager.outcome = none ∧ manager.queue = [])
    (present : succeeded = true → manager.viewportSubscription.isSome = true) :
    Orderly (manager.settle succeeded) := by
  constructor
  · exact nofun
  · exact nofun
  · exact orderly.current
  · intro stream viewportId live
    rcases orderly.live stream viewportId live with there | ⟨previous, held⟩
    · exact .inl there
    · exact absurd held (free _ _ _)
  · have session := orderly.session
    simp only [Manager.settle]
    grind
  · simp only [Manager.settle, Bool.or_eq_true]
    rintro (returned | success)
    · exact orderly.present returned
    · exact present success
  · intro cancelled
    simp [Manager.settle, orderly.handed cancelled]
  · intro fresh
    simp only [Manager.settle, Bool.or_eq_false_iff] at fresh
    exact .inl ⟨rfl, (alone fresh.1).2⟩

lemma Orderly.alone (running : manager.running ≠ none) (fresh : manager.returned = false) :
    manager.outcome = none ∧ manager.queue = [] := by
  rcases orderly.first fresh with settled | ⟨outcome, none | empty, _⟩
  · exact absurd settled.1 running
  · exact absurd none running
  · exact ⟨outcome, empty⟩

lemma Orderly.begin_ {rest : List String} (idle : manager.running = none)
    (queue : manager.queue = viewportId :: rest) : Orderly (manager.begin_ viewportId rest) := by
  have shorter : Orderly { manager with queue := rest } := by
    refine ⟨orderly.waiting, orderly.holding, orderly.current, orderly.live, orderly.session,
      orderly.present, orderly.handed, fun fresh => ?_⟩
    rcases orderly.first fresh with settled | ⟨outcome, _, short⟩
    · rw [settled.2] at queue
      cases queue
    · rw [queue, List.length_cons] at short
      exact .inr ⟨outcome, .inl idle, by dsimp only; omega⟩
  rw [Manager.begin_]
  split
  · next cancelled =>
    have returned := orderly.handed cancelled
    refine shorter.settle ?_ (fun fresh => nomatch returned.symm.trans fresh)
      (fun _ => orderly.present returned)
    intro viewportId previous stream running
    cases idle.symm.trans running
  · refine ⟨?_, nofun, orderly.current, ?_, orderly.session, orderly.present, orderly.handed, ?_⟩
    · rintro _ _ ⟨⟩
      rfl
    · intro stream viewportId live
      rcases orderly.live stream viewportId live with there | ⟨previous, held⟩
      · exact .inl there
      · cases idle.symm.trans held
    · intro fresh
      rcases orderly.first fresh with settled | ⟨outcome, _, short⟩
      · rw [settled.2] at queue
        cases queue
      · rw [queue, List.length_cons] at short
        have empty : rest = [] := List.eq_nil_of_length_eq_zero (by omega)
        exact .inr ⟨outcome, .inr empty, by rw [empty]; exact Nat.zero_le 1⟩

lemma Orderly.open_ (running : manager.running = some ⟨viewportId, .subscribing previous⟩) :
    Orderly (manager.open_ viewportId previous) := by
  have captured := orderly.waiting viewportId previous running
  have fresh : manager.streams[manager.streams.length]? = none := by simp
  have kept : ∀ (stream : Nat) (found : Stream), manager.streams[stream]? = some found →
      (manager.streams ++ [⟨viewportId, false⟩])[stream]? = some found := by
    intro stream found there
    rw [List.getElem?_append_left (List.getElem?_eq_some_iff.mp there).1]
    exact there
  constructor
  · exact nofun
  · rintro _ _ _ ⟨⟩
    refine ⟨captured, by simp [Manager.Live, Manager.open_], ?_⟩
    intro there
    cases fresh.symm.trans (orderly.current _ there)
  · intro stream there
    exact kept _ _ (orderly.current stream there)
  · intro stream other live
    by_cases inside : stream < manager.streams.length
    · rw [Manager.Live, Manager.open_, List.getElem?_append_left inside] at live
      rcases orderly.live stream other live with there | ⟨_, held⟩
      · exact .inl there
      · cases running.symm.trans held
    · rw [Manager.Live, Manager.open_, List.getElem?_append_right (by omega)] at live
      have last : stream = manager.streams.length := by
        have bound := (List.getElem?_eq_some_iff.mp live).1
        simp only [List.length_singleton] at bound
        omega
      subst last
      simp only [Nat.sub_self, List.getElem?_cons_zero, Option.some.injEq, Stream.mk.injEq,
        and_true] at live
      subst live
      exact .inr ⟨previous, rfl⟩
  · exact orderly.session
  · exact orderly.present
  · exact orderly.handed
  · intro unreturned
    obtain ⟨outcome, empty⟩ := orderly.alone (by simp [running]) unreturned
    exact .inr ⟨outcome, .inr empty, by simp [Manager.open_, empty]⟩

/-- The update drops its stream after the manager was cancelled. -/
lemma Orderly.dropped (cancelled : manager.cancelled = true)
    (running : manager.running = some ⟨viewportId, .subscribed previous stream⟩) :
    Orderly { manager.cancelSubscription (some stream) with running := none } := by
  obtain ⟨captured, live, other⟩ := orderly.holding viewportId previous stream running
  refine ⟨nofun, nofun, ?_, ?_, orderly.session, orderly.present, orderly.handed, ?_⟩
  · intro current (there : manager.viewportSubscription = some current)
    have differs : some stream ≠ some current := fun same => other (there.trans same.symm)
    exact (getElem?_cancelAt differs).trans (orderly.current current there)
  · intro current id (alive : (manager.cancelSubscription (some stream)).Live current id)
    obtain ⟨differs, alive⟩ := live_cancelSubscription.mp alive
    rcases orderly.live current id alive with there | ⟨_, held⟩
    · exact .inl there
    · cases running.symm.trans held
      exact absurd rfl differs
  · exact fun fresh => nomatch (orderly.handed cancelled).symm.trans fresh

/-- The update puts its stream in the place of the one it captured. -/
lemma Orderly.replaced (going : manager.cancelled = false)
    (running : manager.running = some ⟨viewportId, .subscribed previous stream⟩) :
    Orderly { (manager.activate viewportId stream).cancelSubscription previous with
      running := none } := by
  obtain ⟨captured, live, other⟩ := orderly.holding viewportId previous stream running
  have differs : previous ≠ some stream := by rw [captured]; exact other
  refine ⟨nofun, nofun, ?_, ?_, orderly.session, fun _ => rfl, orderly.handed, ?_⟩
  · rintro _ ⟨⟩
    refine (getElem?_cancelAt differs).trans ?_
    rw [show (manager.activate viewportId stream).streams[stream]? = _ from live]
    exact congrArg (fun flag => some (Stream.mk viewportId flag)) going.symm
  · intro current id (alive :
      ((manager.activate viewportId stream).cancelSubscription previous).Live current id)
    obtain ⟨notPrevious, alive⟩ := live_cancelSubscription.mp alive
    rcases orderly.live current id alive with ⟨_, there⟩ | ⟨_, held⟩
    · exact absurd (captured.trans there) notPrevious
    · cases running.symm.trans held
      exact .inl ⟨going, rfl⟩
  · intro fresh
    obtain ⟨outcome, empty⟩ := orderly.alone (by simp [running]) fresh
    exact .inl ⟨rfl, empty⟩

lemma Orderly.resume (running : manager.running = some ⟨viewportId, .subscribed previous stream⟩) :
    Orderly (manager.resume viewportId previous stream) := by
  have alone := orderly.alone (by simp [running])
  rw [Manager.resume]
  split
  · next cancelled =>
    exact (orderly.dropped cancelled running).settle nofun alone
      (fun _ => orderly.present (orderly.handed cancelled))
  · next going =>
    exact (orderly.replaced (by simpa using going) running).settle nofun alone (fun _ => rfl)

theorem Orderly.moves {event : Event} (moves : Moves manager event next) : Orderly next := by
  cases moves with
  | setViewportId viewportId returned => exact orderly.setViewportId returned viewportId
  | cancel returned => exact orderly.cancel returned
  | begin idle queue => exact orderly.begin_ idle queue
  | opened running => exact orderly.open_ running
  | rejected running =>
    refine orderly.settle ?_ (orderly.alone (by simp [running])) nofun
    intro _ _ _ held
    cases running.symm.trans held
  | resume running => exact orderly.resume running

end Moves

/-- What the last call can count on: the chain ends with its viewport, or the chain is empty and its
viewport is the active one unless the update before failed. -/
structure Follows (manager : Manager) (requested : String) : Prop where
  chain : ∀ viewportId, manager.pending = some viewportId → viewportId = requested
  active : manager.pending = none → manager.outcome = some true → manager.cancelled = false →
    manager.activeViewportId = requested

/-- The last call, if there is one, can count on that. -/
def LastFollows (manager : Manager) : Prop :=
  ∀ requested, manager.lastRequested = some requested → Follows manager requested

lemma pending_append (manager : Manager) (viewportId : String) (last : Option String) :
    { manager with queue := manager.queue ++ [viewportId], lastRequested := last }.pending =
      some viewportId := by
  simp [Manager.pending]

lemma pending_eq_none : manager.pending = none ↔ manager.Settled := by
  rw [Manager.pending, Manager.Settled]
  cases last : manager.queue.getLast? with
  | none =>
    rw [List.getLast?_eq_none_iff] at last
    simp [last]
  | some viewportId =>
    have nonempty : manager.queue ≠ [] := by
      intro empty
      rw [empty] at last
      cases last
    simp [nonempty]

lemma LastFollows.setViewportId (patient : Patient manager (.setViewportId viewportId)) :
    LastFollows (manager.setViewportId viewportId) := by
  rw [Manager.setViewportId]
  split
  · next shortcut =>
    rintro requested ⟨⟩
    refine ⟨patient shortcut, fun _ _ _ => ?_⟩
    simp only [Manager.shortcut, Bool.and_eq_true, decide_eq_true_eq] at shortcut
    exact shortcut.2
  · rintro requested ⟨⟩
    constructor
    · intro other last
      rw [pending_append] at last
      exact (Option.some.inj last).symm
    · intro none
      rw [pending_append] at none
      cases none

/-- The chain of a manager with nothing on its way ends with its queue. -/
lemma pending_settle (succeeded : Bool) : (manager.settle succeeded).pending =
    manager.queue.getLast? := by
  simp only [Manager.pending, Manager.settle, Option.map_none]
  cases manager.queue.getLast? <;> rfl

lemma pending_of_getLast? (last : manager.queue.getLast? = some viewportId) :
    manager.pending = some viewportId := by
  rw [Manager.pending, last]

section Following
variable (follows : LastFollows manager)
include follows

lemma LastFollows.settle {after : Manager} {succeeded : Bool} (chain : after.queue = manager.queue)
    (call : after.lastRequested = manager.lastRequested)
    (active : succeeded = true → after.cancelled = false → manager.queue = [] →
      ∀ requested, manager.lastRequested = some requested → after.activeViewportId = requested) :
    LastFollows (after.settle succeeded) := by
  intro requested last
  replace last : manager.lastRequested = some requested := call.symm.trans last
  constructor
  · intro viewportId pending
    rw [pending_settle, chain] at pending
    exact (follows requested last).chain viewportId (pending_of_getLast? pending)
  · intro none outcome going
    rw [pending_settle, chain, List.getLast?_eq_none_iff] at none
    exact active (Option.some.inj outcome) going none requested last

lemma LastFollows.begin_ {rest : List String} (idle : manager.running = none)
    (queue : manager.queue = viewportId :: rest) :
    LastFollows (manager.begin_ viewportId rest) := by
  have first : manager.pending = (viewportId :: rest).getLast? := by
    rw [Manager.pending, queue, idle]
    cases (viewportId :: rest).getLast? <;> rfl
  have kept : ∀ other, rest.getLast? = some other → manager.pending = some other := by
    intro other last
    rw [first, List.getLast?_cons, last]
    rfl
  rw [Manager.begin_]
  split
  · next cancelled =>
    intro requested last
    constructor
    · intro other pending
      rw [pending_settle] at pending
      exact (follows requested last).chain other (kept other pending)
    · intro _ _ going
      exact absurd (cancelled.symm.trans going) (by decide)
  · intro requested last
    have same : (manager.start viewportId rest).pending = manager.pending := by
      rw [first, List.getLast?_cons, Manager.pending, Manager.start]
      cases rest.getLast? <;> rfl
    constructor
    · intro other pending
      rw [same] at pending
      exact (follows requested last).chain other pending
    · intro none
      rw [same, first, List.getLast?_cons] at none
      cases none

lemma LastFollows.open_ (running : manager.running = some ⟨viewportId, .subscribing previous⟩) :
    LastFollows (manager.open_ viewportId previous) := by
  have same : (manager.open_ viewportId previous).pending = manager.pending := by
    rw [Manager.pending, Manager.pending, running]
    rfl
  intro requested last
  constructor
  · intro other pending
    rw [same] at pending
    exact (follows requested last).chain other pending
  · intro none
    rw [same] at none
    exact (follows requested last).active none

lemma LastFollows.resume
    (running : manager.running = some ⟨viewportId, .subscribed previous stream⟩) :
    LastFollows (manager.resume viewportId previous stream) := by
  have own : manager.queue = [] → manager.pending = some viewportId := by
    intro empty
    rw [Manager.pending, empty, running]
    rfl
  rw [Manager.resume]
  split
  · next cancelled =>
    exact follows.settle rfl rfl fun _ going => nomatch cancelled.symm.trans going
  · refine follows.settle rfl rfl fun _ _ empty requested last => ?_
    exact (follows requested last).chain viewportId (own empty)

lemma LastFollows.cancel : LastFollows manager.cancel := by
  rw [Manager.cancel]
  split
  · exact follows
  · intro requested last
    exact ⟨(follows requested last).chain, fun _ _ going => nomatch going⟩

theorem LastFollows.moves {event : Event} (patient : Patient manager event)
    (moves : Moves manager event next) : LastFollows next := by
  cases moves with
  | setViewportId viewportId returned => exact LastFollows.setViewportId patient
  | cancel returned => exact follows.cancel
  | begin idle queue => exact follows.begin_ idle queue
  | opened running => exact follows.open_ running
  | rejected running => exact follows.settle rfl rfl nofun
  | resume running => exact follows.resume running

end Following

end Invariant

/-- What is left when all calls have settled: the session stream and one viewport stream, which is
the one requested last if that call went through; or nothing, after a cancel. -/
structure Upheld (manager : Manager) : Prop where
  open_ : manager.cancelled = false → manager.sessionCancelled = false ∧
    ∃ stream viewportId, manager.Live stream viewportId ∧
      (∀ other otherId, manager.Live other otherId → other = stream) ∧
      ∀ requested, manager.lastRequested = some requested → manager.outcome = some true →
        viewportId = requested
  cancelled : manager.cancelled = true → manager.sessionCancelled = true ∧
    ∀ stream viewportId, ¬ manager.Live stream viewportId

/-- The last requested viewport is the one subscribed, in every run without a request for the active
viewport that overtakes an update to another one. -/
theorem last_requested_subscribed {viewportId : String} {manager : Manager}
    (reached : Transition.Reaches Manager.step Patient (.opening viewportId) manager)
    (returned : manager.returned = true) (settled : manager.Settled) : Upheld manager := by
  have orderly : Orderly manager := reached.invariant (opening_orderly viewportId)
    fun _ _ _ _ orderly _ stepped => orderly.moves (step_moves stepped)
  have follows : LastFollows manager := reached.invariant nofun
    fun _ _ _ _ follows patient stepped => follows.moves patient (step_moves stepped)
  constructor
  · intro going
    obtain ⟨stream, subscribed⟩ := Option.isSome_iff_exists.mp (orderly.present returned)
    have live : manager.Live stream manager.activeViewportId := by
      rw [Manager.Live, ← going]
      exact orderly.current stream subscribed
    refine ⟨?_, stream, manager.activeViewportId, live, ?_, ?_⟩
    · cases cancelled : manager.sessionCancelled with
      | false => rfl
      | true =>
        rcases orderly.session.mp cancelled with stopped | ⟨unreturned, _⟩
        · exact stopped.symm.trans going
        · exact returned.symm.trans unreturned
    · intro other otherId alive
      rcases orderly.live other otherId alive with ⟨_, there⟩ | ⟨_, held⟩
      · exact Option.some.inj (there.symm.trans subscribed)
      · cases settled.1.symm.trans held
    · intro requested last succeeded
      exact (follows requested last).active (pending_eq_none.mpr settled) succeeded going
  · intro cancelled
    refine ⟨orderly.session.mpr (.inl cancelled), fun stream id alive => ?_⟩
    rcases orderly.live stream id alive with ⟨going, _⟩ | ⟨_, held⟩
    · cases cancelled.symm.trans going
    · cases settled.1.symm.trans held

theorem last_requested_subscribed_after_two : ∃ manager,
    Transition.Reaches Manager.step Patient (.opening "left") manager ∧ Upheld manager ∧
      manager.lastRequested = some "right" := by
  obtain ⟨manager, reached, shows⟩ := Transition.exists_reaches Manager.step Patient
    (.opening "left") (fun manager => manager.returned && decide manager.Settled &&
      decide (manager.lastRequested = some "right"))
    [.begin, .opened, .resume, .setViewportId "left", .setViewportId "right", .begin, .opened,
      .resume]
    (by decide +kernel)
  simp only [Bool.and_eq_true, decide_eq_true_eq] at shows
  exact ⟨manager, reached, last_requested_subscribed reached shows.1.1 shows.1.2, shows.2⟩

/-- A request to go back that is made while the update away from the active viewport is under way is
lost: it succeeds, and the stream is that of the other viewport. -/
theorem request_back_is_lost : ∃ manager,
    Transition.Reaches Manager.step (fun _ _ => True) (.opening "left") manager ∧
      manager.returned = true ∧ manager.Settled ∧ manager.cancelled = false ∧
      manager.lastRequested = some "left" ∧ manager.outcome = some true ∧
      manager.streams = [⟨"left", true⟩, ⟨"right", false⟩] := by
  obtain ⟨manager, reached, shows⟩ := Transition.exists_reaches Manager.step (fun _ _ => True)
    (.opening "left") (fun manager => decide (manager.returned = true ∧ manager.Settled ∧
      manager.cancelled = false ∧ manager.lastRequested = some "left" ∧
      manager.outcome = some true ∧ manager.streams = [⟨"left", true⟩, ⟨"right", false⟩]))
    [.begin, .opened, .resume, .setViewportId "right", .begin, .setViewportId "left", .opened,
      .resume]
    (by decide +kernel)
  exact ⟨manager, reached, of_decide_eq_true shows⟩

end OmegaEdit.Client.Subscriptions
