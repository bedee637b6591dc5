import OmegaEdit.Server.Manager

/-! Subscriptions to the events of sessions and viewports. A call changes the list of
subscriptions and stores the combined interest in the core object; for a session these are two
critical sections under different locks, for a viewport the core lock is held over both.
Sessions and viewports are neither created nor destroyed here; a call without a queue returns at
once and is left out. -/
namespace OmegaEdit.Server.Events
open Threads

/-- A session or a viewport. -/
inductive Target where
  | session (id : SessionId)
  | viewport (session : SessionId) (id : Nat)
deriving DecidableEq, Repr

structure Subscription where
  eventQueue : Nat
  interest : BitVec 32
deriving DecidableEq, Repr

/-- The subscriptions of a session or viewport, and the interest of its core object if it has one. -/
structure Channel where
  hasCore : Bool
  eventInterest : BitVec 32
  subscriptions : List Subscription

/-- The objects of the manager; queues are numbered in the order of their creation. -/
structure Hub where
  known : Target → Bool
  channels : Target → Channel
  queues : Nat
  closed : Nat → Bool

/-- Core objects are created without interest. -/
def Hub.start (known hasCore : Target → Bool) : Hub :=
  ⟨known, fun target => ⟨hasCore target, 0, []⟩, 0, fun _ => false⟩

inductive Change where
  | subscribe (interest : BitVec 32)
  | unsubscribeAll
  | unsubscribe (queue : Nat)
deriving DecidableEq, Repr

structure Call where
  target : Target
  change : Change
deriving DecidableEq, Repr

/-- What a call does when it has changed the list: the interest to be stored, the queues to be closed,
and the queue that it returns. -/
structure Pending where
  combinedInterest : BitVec 32
  removedQueues : List Nat
  queue : Option Nat
deriving DecidableEq, Repr

inductive Task where
  | begin (call : Call)
  | change (call : Call)
  | storeInterest (id : SessionId) (pending : Pending)
  | withdraw (id : SessionId) (queue : Nat)
  | finished (queue : Option Nat)
deriving DecidableEq, Repr

def combineEventInterest (subscriptions : List Subscription) : BitVec 32 :=
  subscriptions.foldl (fun combined subscription => combined ||| subscription.interest) 0

def collectEventSubscribers (subscriptions : List Subscription) (kind : BitVec 32) : List Nat :=
  (subscriptions.filter fun subscription => subscription.interest &&& kind ≠ 0).map Subscription.eventQueue

namespace Hub
variable (hub : Hub)

def modify (target : Target) (change : Channel → Channel) : Hub :=
  { hub with channels := Function.update hub.channels target (change (hub.channels target)) }

def subscriptions (target : Target) : List Subscription := (hub.channels target).subscriptions

def setSubscriptions (target : Target) (subscriptions : List Subscription) : Hub :=
  hub.modify target fun channel => { channel with subscriptions := subscriptions }

/-- The critical section of the subscription lock. -/
def change (target : Target) : Change → Hub × Pending
  | .subscribe interest =>
    let changed := hub.subscriptions target ++ [⟨hub.queues, interest⟩]
    ({ hub.setSubscriptions target changed with queues := hub.queues + 1 },
      ⟨combineEventInterest changed, [], some hub.queues⟩)
  | .unsubscribeAll =>
    (hub.setSubscriptions target [],
      ⟨0, (hub.subscriptions target).map Subscription.eventQueue, none⟩)
  | .unsubscribe queue =>
    let changed := (hub.subscriptions target).filter fun subscription => subscription.eventQueue ≠ queue
    let removed := (hub.subscriptions target).any fun subscription => subscription.eventQueue = queue
    (hub.setSubscriptions target changed,
      ⟨combineEventInterest changed, if removed then [queue] else [], none⟩)

def close (queues : List Nat) : Hub :=
  { hub with closed := fun queue => hub.closed queue || queues.contains queue }

/-- The interest is stored if there is a core object, and queues that were removed are closed. -/
def store (target : Target) (pending : Pending) : Hub :=
  (hub.modify target fun channel =>
    if channel.hasCore then { channel with eventInterest := pending.combinedInterest } else channel).close
      pending.removedQueues

/-- The queues that take an event: the core object calls back if it is interested, and closed queues
take nothing. -/
def delivered (target : Target) (kind : BitVec 32) : List Nat :=
  let channel := hub.channels target
  if channel.hasCore ∧ kind &&& channel.eventInterest ≠ 0 then
    (collectEventSubscribers channel.subscriptions kind).filter fun queue => !hub.closed queue
  else []

end Hub

def advance (hub : Hub) (task : Task) (_ : Unit) : Option (Hub × Task) :=
  match task with
  | .begin call => some (hub, if hub.known call.target then .change call else .finished none)
  | .change ⟨.session id, change⟩ =>
    let (changed, pending) := hub.change (.session id) change
    some (changed, .storeInterest id pending)
  | .change ⟨.viewport session id, change⟩ =>
    -- under the core lock from here to the end of the call
    let target := .viewport session id
    match (hub.channels target).hasCore, change with
    | false, .subscribe _ => some (hub, .finished none)
    | _, _ =>
      let (changed, pending) := hub.change target change
      some (changed.store target pending, .finished pending.queue)
  | .storeInterest id pending =>
    match (hub.channels (.session id)).hasCore, pending.queue with
    | false, some queue => some (hub, .withdraw id queue)
    | _, _ => some (hub.store (.session id) pending, .finished pending.queue)
  | .withdraw id queue =>
    some ((hub.change (.session id) (.unsubscribe queue)).1.close [queue], .finished none)
  | .finished _ => none

variable {hub next : Hub} {target other : Target} {task moved : Task} {pending : Pending}
  {system : System Hub Task} {index : Nat}

section Combining

lemma foldl_interest (subscriptions : List Subscription) (kind combined : BitVec 32)
    (none : subscriptions.foldl (fun combined subscription => combined ||| subscription.interest) combined
      &&& kind = 0) :
    combined &&& kind = 0 ∧ ∀ subscription ∈ subscriptions, subscription.interest &&& kind = 0 := by
  induction subscriptions generalizing combined with
  | nil => exact ⟨none, nofun⟩
  | cons first rest ih =>
    obtain ⟨both, later⟩ := ih (combined ||| first.interest) none
    rw [BitVec.and_or_distrib_right] at both
    obtain ⟨before, own⟩ := BitVec.or_eq_zero_iff.mp both
    refine ⟨before, fun subscription there => ?_⟩
    rcases List.mem_cons.mp there with rfl | there
    · exact own
    · exact later subscription there

/-- The combined interest has every kind that some subscription asks for. -/
lemma combineEventInterest_and {subscriptions : List Subscription} {subscription : Subscription}
    (there : subscription ∈ subscriptions) {kind : BitVec 32} (asked : subscription.interest &&& kind ≠ 0) :
    kind &&& combineEventInterest subscriptions ≠ 0 := by
  intro none
  rw [BitVec.and_comm] at none
  exact asked ((foldl_interest subscriptions kind 0 none).2 subscription there)

end Combining

section Changes

@[simp] lemma Hub.channels_modify_self {change : Channel → Channel} :
    (hub.modify target change).channels target = change (hub.channels target) := by
  simp only [Hub.modify, Function.update_self]

@[simp] lemma Hub.channels_modify_of_ne {change : Channel → Channel} (apart : other ≠ target) :
    (hub.modify target change).channels other = hub.channels other := by
  simp only [Hub.modify, Function.update_of_ne apart]

/-- What a change of the subscriptions of one object does. -/
structure Changes (hub next : Hub) (target : Target) (pending : Pending) : Prop where
  elsewhere : ∀ other ≠ target, next.channels other = hub.channels other
  hasCore : (next.channels target).hasCore = (hub.channels target).hasCore
  combined : pending.combinedInterest = combineEventInterest (next.subscriptions target)
  closed : next.closed = hub.closed
  queues : hub.queues ≤ next.queues
  added : ∀ subscription ∈ next.subscriptions target, subscription ∈ hub.subscriptions target ∨
    subscription.eventQueue = hub.queues ∧ hub.queues < next.queues
  removed : ∀ queue ∈ pending.removedQueues,
    (∃ subscription ∈ hub.subscriptions target, subscription.eventQueue = queue) ∧
      ∀ subscription ∈ next.subscriptions target, subscription.eventQueue ≠ queue
  own : ∀ queue ∈ pending.queue, queue = hub.queues ∧ hub.queues < next.queues

lemma changes_setSubscriptions (hub : Hub) (target : Target) {changed : List Subscription}
    (sublist : changed ⊆ hub.subscriptions target) {removed : List Nat}
    (gone : ∀ queue ∈ removed, (∃ subscription ∈ hub.subscriptions target, subscription.eventQueue = queue) ∧
      ∀ subscription ∈ changed, subscription.eventQueue ≠ queue) :
    Changes hub (hub.setSubscriptions target changed) target ⟨combineEventInterest changed, removed, none⟩ := by
  have after : (hub.setSubscriptions target changed).subscriptions target = changed := by
    rw [Hub.subscriptions, Hub.setSubscriptions, Hub.channels_modify_self]
  refine ⟨fun other apart => Hub.channels_modify_of_ne apart, ?_, ?_, rfl, le_rfl, ?_, ?_, nofun⟩
  · rw [Hub.setSubscriptions, Hub.channels_modify_self]
  · rw [after]
  · intro subscription there
    rw [after] at there
    exact .inl (sublist there)
  · rw [after]
    exact gone

lemma changes_change (hub : Hub) (target : Target) (change : Change) :
    Changes hub (hub.change target change).1 target (hub.change target change).2 := by
  cases change with
  | subscribe interest =>
    have after : (hub.change target (.subscribe interest)).1.subscriptions target =
        hub.subscriptions target ++ [⟨hub.queues, interest⟩] := by
      rw [Hub.change]
      simp only [Hub.subscriptions, Hub.setSubscriptions, Hub.channels_modify_self]
    refine ⟨?_, ?_, ?_, rfl, Nat.le_succ _, ?_, nofun, ?_⟩
    · intro other apart
      rw [Hub.change]
      simp only [Hub.setSubscriptions, Hub.channels_modify_of_ne apart]
    · rw [Hub.change]
      simp only [Hub.setSubscriptions, Hub.channels_modify_self]
    · rw [after]
      rfl
    · intro subscription there
      rw [after] at there
      rcases List.mem_append.mp there with old | new
      · exact .inl old
      · rw [List.mem_singleton.mp new]
        exact .inr ⟨rfl, Nat.lt_succ_self _⟩
    · rintro _ ⟨⟩
      exact ⟨rfl, Nat.lt_succ_self _⟩
  | unsubscribeAll =>
    refine changes_setSubscriptions hub target (List.nil_subset _) fun queue there => ⟨?_, nofun⟩
    exact List.mem_map.mp there
  | unsubscribe queue =>
    refine changes_setSubscriptions hub target List.filter_sublist.subset fun removed there => ?_
    split at there
    · rename_i found
      rw [List.mem_singleton.mp there]
      obtain ⟨subscription, listed, same⟩ := List.any_eq_true.mp found
      refine ⟨⟨subscription, listed, of_decide_eq_true same⟩, fun other kept => ?_⟩
      exact of_decide_eq_true (List.mem_filter.mp kept).2
    · cases there

/-- What the end of a call does. -/
structure Stores (hub next : Hub) (target : Target) (pending : Pending) : Prop where
  elsewhere : ∀ other ≠ target, next.channels other = hub.channels other
  hasCore : (next.channels target).hasCore = (hub.channels target).hasCore
  subscriptions : next.subscriptions target = hub.subscriptions target
  eventInterest : (hub.channels target).hasCore = true →
    (next.channels target).eventInterest = pending.combinedInterest
  queues : next.queues = hub.queues
  closed : ∀ queue, next.closed queue = true → hub.closed queue = true ∨ queue ∈ pending.removedQueues

lemma stores_store (hub : Hub) (target : Target) (pending : Pending) :
    Stores hub (hub.store target pending) target pending where
  elsewhere other apart := Hub.channels_modify_of_ne apart
  hasCore := by
    simp only [Hub.store, Hub.close, Hub.channels_modify_self]
    split
    · rfl
    · rfl
  subscriptions := by
    simp only [Hub.subscriptions, Hub.store, Hub.close, Hub.channels_modify_self]
    split
    · rfl
    · rfl
  eventInterest present := by
    simp only [Hub.store, Hub.close, Hub.channels_modify_self, present, if_true]
  queues := rfl
  closed queue closed := by
    rcases Bool.or_eq_true_iff.mp closed with before | removed
    · exact .inl before
    · exact .inr (List.contains_iff_mem.mp removed)

/-- Without a core object, a call that closes queues changes nothing else. -/
lemma stores_close (absent : (hub.channels target).hasCore = false) (queues : List Nat) :
    Stores hub (hub.close queues) target ⟨0, queues, none⟩ where
  elsewhere _ _ := rfl
  hasCore := rfl
  subscriptions := rfl
  eventInterest present := by cases absent.symm.trans present
  queues := rfl
  closed queue closed := by
    rcases Bool.or_eq_true_iff.mp closed with before | removed
    · exact .inl before
    · exact .inr (List.contains_iff_mem.mp removed)

lemma change_unsubscribe (hub : Hub) (target : Target) (queue : Nat) :
    ∀ subscription ∈ (hub.change target (.unsubscribe queue)).1.subscriptions target,
      subscription.eventQueue ≠ queue := by
  intro subscription there
  simp only [Hub.change, Hub.subscriptions, Hub.setSubscriptions, Hub.channels_modify_self] at there
  exact of_decide_eq_true (List.mem_filter.mp there).2

end Changes

section Invariant

/-- The object and interest that a call has still to store. -/
def Task.storing : Task → Option (Target × BitVec 32)
  | .storeInterest id pending => some (.session id, pending.combinedInterest)
  | _ => none

/-- The queues that a call has removed and still has to close. -/
def Task.closing : Task → List Nat
  | .storeInterest _ pending => pending.removedQueues
  | _ => []

/-- The session and queue of a subscription that is being made. -/
def Task.subscribing : Task → Option (SessionId × Nat)
  | .storeInterest id pending => pending.queue.map fun queue => (id, queue)
  | .withdraw id queue => some (id, queue)
  | _ => none

/-- The interest of a core object is right, or a call is about to make it right. -/
def Settles (system : System Hub Task) (target : Target) : Prop :=
  (system.shared.channels target).eventInterest = combineEventInterest (system.shared.subscriptions target) ∨
    ∃ (place : Nat) (task : Task), system.tasks[place]? = some task ∧
      task.storing = some (target, combineEventInterest (system.shared.subscriptions target))

/-- Registered queues are open, and each belongs to one object. -/
structure Queues (hub : Hub) : Prop where
  registered : ∀ target, ∀ subscription ∈ hub.subscriptions target,
    subscription.eventQueue < hub.queues ∧ hub.closed subscription.eventQueue = false
  distinct : ∀ target other, ∀ subscription ∈ hub.subscriptions target,
    ∀ another ∈ hub.subscriptions other, subscription.eventQueue = another.eventQueue → target = other
  unused : ∀ queue, hub.closed queue = true → queue < hub.queues

structure Consistent (system : System Hub Task) : Prop where
  settles : ∀ target, (system.shared.channels target).hasCore = true → Settles system target
  queues : Queues system.shared

structure Relies (hub : Hub) (task : Task) : Prop where
  closing : ∀ queue ∈ task.closing, queue < hub.queues ∧
    ∀ target, ∀ subscription ∈ hub.subscriptions target, subscription.eventQueue ≠ queue
  subscribing : ∀ id queue, task.subscribing = some (id, queue) → queue < hub.queues ∧
    ∀ target, ∀ subscription ∈ hub.subscriptions target, subscription.eventQueue = queue →
      target = .session id
  absent : ∀ id queue, task = .withdraw id queue → (hub.channels (.session id)).hasCore = false

/-- Objects keep whether they have a core object, and new subscriptions have new queues. -/
structure Grows (hub next : Hub) : Prop where
  hasCore : ∀ target, (next.channels target).hasCore = (hub.channels target).hasCore
  queues : hub.queues ≤ next.queues
  added : ∀ target, ∀ subscription ∈ next.subscriptions target,
    subscription ∈ hub.subscriptions target ∨ hub.queues ≤ subscription.eventQueue

lemma Relies.extend (relies : Relies hub task) (grows : Grows hub next) : Relies next task where
  closing queue there := by
    obtain ⟨inside, unlisted⟩ := relies.closing queue there
    refine ⟨lt_of_lt_of_le inside grows.queues, fun target subscription listed => ?_⟩
    rcases grows.added target subscription listed with old | new
    · exact unlisted target subscription old
    · exact Nat.ne_of_gt (lt_of_lt_of_le inside new)
  subscribing id queue own := by
    obtain ⟨inside, only⟩ := relies.subscribing id queue own
    refine ⟨lt_of_lt_of_le inside grows.queues, fun target subscription listed same => ?_⟩
    rcases grows.added target subscription listed with old | new
    · exact only target subscription old same
    · exact absurd same (Nat.ne_of_gt (lt_of_lt_of_le inside new))
  absent id queue own := by
    rw [grows.hasCore]
    exact relies.absent id queue own

lemma Hub.subscriptions_of_ne (elsewhere : ∀ other ≠ target, next.channels other = hub.channels other)
    (apart : other ≠ target) : next.subscriptions other = hub.subscriptions other := by
  rw [Hub.subscriptions, elsewhere other apart, Hub.subscriptions]

lemma Changes.grows (changes : Changes hub next target pending) : Grows hub next where
  hasCore other := by
    rcases eq_or_ne other target with rfl | apart
    · exact changes.hasCore
    · rw [changes.elsewhere other apart]
  queues := changes.queues
  added other subscription there := by
    rcases eq_or_ne other target with rfl | apart
    · exact (changes.added subscription there).imp_right fun new => Nat.le_of_eq new.1.symm
    · rw [Hub.subscriptions_of_ne changes.elsewhere apart] at there
      exact .inl there

lemma Stores.subscriptions_eq (stores : Stores hub next target pending) (other : Target) :
    next.subscriptions other = hub.subscriptions other := by
  rcases eq_or_ne other target with rfl | apart
  · exact stores.subscriptions
  · exact Hub.subscriptions_of_ne stores.elsewhere apart

lemma Stores.grows (stores : Stores hub next target pending) : Grows hub next where
  hasCore other := by
    rcases eq_or_ne other target with rfl | apart
    · exact stores.hasCore
    · rw [stores.elsewhere other apart]
  queues := Nat.le_of_eq stores.queues.symm
  added other subscription there := by
    rw [stores.subscriptions_eq] at there
    exact .inl there

lemma Queues.change (queues : Queues hub) (changes : Changes hub next target pending) : Queues next where
  registered other subscription there := by
    rw [changes.closed]
    rcases changes.grows.added other subscription there with old | new
    · obtain ⟨inside, opened⟩ := queues.registered other subscription old
      exact ⟨lt_of_lt_of_le inside changes.queues, opened⟩
    · have opened : hub.closed subscription.eventQueue = false := by
        cases closed : hub.closed subscription.eventQueue with
        | false => rfl
        | true => exact absurd (queues.unused _ closed) (not_lt.mpr new)
      refine ⟨?_, opened⟩
      rcases eq_or_ne other target with rfl | apart
      · rcases changes.added subscription there with old | ⟨same, inside⟩
        · exact lt_of_lt_of_le (queues.registered other subscription old).1 changes.queues
        · rwa [same]
      · rw [Hub.subscriptions_of_ne changes.elsewhere apart] at there
        exact absurd (queues.registered other subscription there).1 (not_lt.mpr new)
  distinct first second subscription there another thereAnother same := by
    -- a new queue is not in any list yet, and there is only one list with new queues
    have list : ∀ other, ∀ subscription ∈ next.subscriptions other,
        subscription ∈ hub.subscriptions other ∨ other = target ∧ subscription.eventQueue = hub.queues := by
      intro other subscription there
      rcases eq_or_ne other target with rfl | apart
      · exact (changes.added subscription there).imp_right fun new => ⟨rfl, new.1⟩
      · rw [Hub.subscriptions_of_ne changes.elsewhere apart] at there
        exact .inl there
    rcases list first subscription there with old | ⟨rfl, new⟩
    · rcases list second another thereAnother with oldAnother | ⟨-, newAnother⟩
      · exact queues.distinct first second subscription old another oldAnother same
      · have inside := (queues.registered first subscription old).1
        rw [same, newAnother] at inside
        exact absurd inside (lt_irrefl _)
    · rcases list second another thereAnother with oldAnother | ⟨rfl, -⟩
      · have inside := (queues.registered second another oldAnother).1
        rw [← same, new] at inside
        exact absurd inside (lt_irrefl _)
      · rfl
  unused queue closed := by
    rw [changes.closed] at closed
    exact lt_of_lt_of_le (queues.unused queue closed) changes.queues

lemma Queues.store (queues : Queues hub) (stores : Stores hub next target pending)
    (unlisted : ∀ queue ∈ pending.removedQueues, queue < hub.queues ∧
      ∀ target, ∀ subscription ∈ hub.subscriptions target, subscription.eventQueue ≠ queue) :
    Queues next where
  registered other subscription there := by
    rw [stores.subscriptions_eq] at there
    obtain ⟨inside, opened⟩ := queues.registered other subscription there
    rw [stores.queues]
    refine ⟨inside, ?_⟩
    cases closed : next.closed subscription.eventQueue with
    | false => rfl
    | true =>
      rcases stores.closed _ closed with before | removed
      · exact before.symm.trans opened
      · exact absurd rfl ((unlisted _ removed).2 other subscription there)
  distinct first second subscription there another thereAnother same := by
    rw [stores.subscriptions_eq] at there thereAnother
    exact queues.distinct first second subscription there another thereAnother same
  unused queue closed := by
    rw [stores.queues]
    rcases stores.closed queue closed with before | removed
    · exact queues.unused queue before
    · exact (unlisted queue removed).1

lemma Queues.removed (queues : Queues hub) (changes : Changes hub next target pending) :
    ∀ queue ∈ pending.removedQueues, queue < next.queues ∧
      ∀ target, ∀ subscription ∈ next.subscriptions target, subscription.eventQueue ≠ queue := by
  intro queue there
  obtain ⟨⟨removed, listed, rfl⟩, unlisted⟩ := changes.removed queue there
  refine ⟨lt_of_lt_of_le (queues.registered target removed listed).1 changes.queues, ?_⟩
  intro other subscription thereOther same
  rcases eq_or_ne other target with rfl | apart
  · exact unlisted subscription thereOther same
  · rw [Hub.subscriptions_of_ne changes.elsewhere apart] at thereOther
    exact apart (queues.distinct other target subscription thereOther removed listed same)

lemma Settles.elsewhere (settles : Settles system other) (found : system.tasks[index]? = some task)
    (kept : next.channels other = system.shared.channels other)
    (free : ∀ value, task.storing ≠ some (other, value)) :
    Settles ⟨next, system.tasks.set index moved⟩ other := by
  have same : next.subscriptions other = system.shared.subscriptions other := by
    rw [Hub.subscriptions, kept, Hub.subscriptions]
  simp only [Settles, same, kept]
  rcases settles with right | ⟨place, waiting, there, stores⟩
  · exact .inl right
  · right
    refine ⟨place, waiting, ?_, stores⟩
    rw [List.getElem?_set_ne]
    · exact there
    · rintro rfl
      cases found.symm.trans there
      exact free _ stores

lemma Grows.trans {last : Hub} (first : Grows hub next) (second : Grows next last) : Grows hub last where
  hasCore target := (second.hasCore target).trans (first.hasCore target)
  queues := le_trans first.queues second.queues
  added target subscription there := by
    rcases second.added target subscription there with old | new
    · exact first.added target subscription old
    · exact .inr (le_trans first.queues new)

lemma Grows.refl (hub : Hub) : Grows hub hub := ⟨fun _ => rfl, le_rfl, fun _ _ there => .inl there⟩

/-- The queue of a new subscription is in one list only. -/
lemma Queues.own (queues : Queues hub) (changes : Changes hub next target pending) {queue : Nat}
    (own : queue ∈ pending.queue) : queue < next.queues ∧
      ∀ other, ∀ subscription ∈ next.subscriptions other, subscription.eventQueue = queue → other = target := by
  obtain ⟨rfl, inside⟩ := changes.own queue own
  refine ⟨inside, fun other subscription there same => ?_⟩
  rcases eq_or_ne other target with rfl | apart
  · rfl
  · rw [Hub.subscriptions_of_ne changes.elsewhere apart] at there
    have old := (queues.registered other subscription there).1
    rw [same] at old
    exact absurd old (lt_irrefl _)

def InOrder (system : System Hub Task) : Prop := Holds Consistent Relies (fun _ _ => True) system

/-- The calls stay in order when one moves on. -/
structure Orderly (system : System Hub Task) (index : Nat) (next : Hub) (moved : Task) : Prop where
  consistent : Consistent ⟨next, system.tasks.set index moved⟩
  relies : Relies next moved
  grows : Grows system.shared next

lemma relies_finished (hub : Hub) (queue : Option Nat) : Relies hub (.finished queue) :=
  ⟨nofun, nofun, nofun⟩

section Ordered
variable (ordered : InOrder system)
include ordered

lemma InOrder.keep (found : system.tasks[index]? = some task) (free : task.storing = none)
    (relies : Relies system.shared moved) :
    Orderly system index system.shared moved where
  consistent := by
    refine ⟨fun target present => ?_, ordered.whole.queues⟩
    refine (ordered.whole.settles target present).elsewhere found rfl fun value stores => ?_
    cases free.symm.trans stores
  relies := relies
  grows := .refl _

/-- A call changes the subscriptions of a session; it has still to store their interest. -/
lemma InOrder.changeSession {id : SessionId} {call : Call}
    (found : system.tasks[index]? = some (.change call))
    (changes : Changes system.shared next (.session id) pending) :
    Orderly system index next (.storeInterest id pending) := by
  have queues := ordered.whole.queues
  refine ⟨⟨fun target present => ?_, queues.change changes⟩, ⟨queues.removed changes, ?_, nofun⟩, changes.grows⟩
  · rcases Decidable.em (target = .session id) with rfl | apart
    · right
      refine ⟨index, _, List.getElem?_set_self (List.getElem?_eq_some_iff.mp found).1, ?_⟩
      simp only [Task.storing, changes.combined]
    · rw [changes.grows.hasCore] at present
      exact (ordered.whole.settles target present).elsewhere found (changes.elsewhere target apart) nofun
  · intro own queue subscribing
    obtain ⟨_, returned, same⟩ := Option.map_eq_some_iff.mp subscribing
    cases same
    exact queues.own changes returned

/-- A call changes the subscriptions of an object and stores their interest in one step. -/
lemma InOrder.changeAndStore {target : Target} {call : Call} {between : Hub}
    (found : system.tasks[index]? = some (.change call))
    (changes : Changes system.shared between target pending)
    (stores : Stores between next target pending) :
    Orderly system index next (.finished pending.queue) := by
  have queues := ordered.whole.queues
  have grows := changes.grows.trans stores.grows
  refine ⟨⟨fun other present => ?_, (queues.change changes).store stores (queues.removed changes)⟩,
    relies_finished next _, grows⟩
  rcases eq_or_ne other target with rfl | apart
  · left
    rw [stores.grows.hasCore] at present
    rw [stores.eventInterest present, changes.combined, stores.subscriptions]
  · rw [grows.hasCore] at present
    exact (ordered.whole.settles other present).elsewhere found
      ((stores.elsewhere other apart).trans (changes.elsewhere other apart)) nofun

/-- A call stores an interest that is right, or that another one will make right. -/
lemma InOrder.storeInterest {id : SessionId}
    (found : system.tasks[index]? = some (.storeInterest id pending))
    (stores : Stores system.shared next (.session id) pending)
    (current : (system.shared.channels (.session id)).hasCore = true →
      pending.combinedInterest = combineEventInterest (system.shared.subscriptions (.session id)) ∨
        ∃ (place : Nat) (task : Task), place ≠ index ∧ system.tasks[place]? = some task ∧
          task.storing = some (.session id, combineEventInterest (system.shared.subscriptions (.session id)))) :
    Orderly system index next (.finished pending.queue) := by
  refine ⟨⟨fun other present => ?_, ordered.whole.queues.store stores (ordered.each index _ found).closing⟩,
    relies_finished next _, stores.grows⟩
  rw [stores.grows.hasCore] at present
  rcases Decidable.em (other = .session id) with rfl | apart
  · simp only [Settles, stores.subscriptions_eq, stores.eventInterest present]
    rcases current present with right | ⟨place, waiting, elsewhere, there, storing⟩
    · exact .inl right
    · right
      refine ⟨place, waiting, ?_, storing⟩
      rw [List.getElem?_set_ne (Ne.symm elsewhere), there]
  · refine (ordered.whole.settles other present).elsewhere found (stores.elsewhere other apart) ?_
    intro value storing
    cases storing
    exact apart rfl

/-- A subscription to a session without a core object is given up. -/
lemma InOrder.withdraw {id : SessionId} {queue : Nat}
    (found : system.tasks[index]? = some (.withdraw id queue)) :
    Orderly system index ((system.shared.change (.session id) (.unsubscribe queue)).1.close [queue])
      (.finished none) := by
  have relies := ordered.each index _ found
  have changes := changes_change system.shared (.session id) (.unsubscribe queue)
  have absent := relies.absent id queue rfl
  obtain ⟨inside, only⟩ := relies.subscribing id queue rfl
  have stores := stores_close (changes.hasCore.trans absent) [queue]
  have grows := changes.grows.trans stores.grows
  refine ⟨⟨fun other present => ?_, (ordered.whole.queues.change changes).store stores ?_⟩,
    relies_finished _ _, grows⟩
  · rw [grows.hasCore] at present
    have apart : other ≠ .session id := by
      rintro rfl
      cases absent.symm.trans present
    exact (ordered.whole.settles other present).elsewhere found
      ((stores.elsewhere other apart).trans (changes.elsewhere other apart)) nofun
  · intro removed there
    rw [List.mem_singleton.mp there]
    refine ⟨lt_of_lt_of_le inside changes.queues, fun target subscription listed same => ?_⟩
    rcases Decidable.em (target = .session id) with rfl | apart
    · exact change_unsubscribe _ _ queue subscription listed same
    · rw [Hub.subscriptions_of_ne changes.elsewhere apart] at listed
      exact apart (only target subscription listed same)

/-- A call stores its interest only if it is that of the present subscriptions, or if another call has
still to store that one. -/
def StoresCurrent (system : System Hub Task) : Event Call Unit → Prop
  | .spawn _ => True
  | .advance index _ =>
    match system.tasks[index]? with
    | some (.storeInterest id pending) => (system.shared.channels (.session id)).hasCore = true →
      pending.combinedInterest = combineEventInterest (system.shared.subscriptions (.session id)) ∨
        ∃ place < system.tasks.length, place ≠ index ∧ system.tasks[place]?.bind Task.storing =
          some (.session id, combineEventInterest (system.shared.subscriptions (.session id)))
    | _ => True

lemma InOrder.advance {outcome : Unit} (found : system.tasks[index]? = some task)
    (current : StoresCurrent system (.advance index outcome))
    (ran : Events.advance system.shared task outcome = some (next, moved)) :
    Orderly system index next moved := by
  have relies := ordered.each index task found
  cases task with
  | begin call =>
    cases ran
    refine ordered.keep found rfl ?_
    split
    · exact ⟨nofun, nofun, nofun⟩
    · exact relies_finished _ _
  | change call =>
    obtain ⟨target, change⟩ := call
    have changes := changes_change system.shared target change
    cases target with
    | session id =>
      cases ran
      exact ordered.changeSession found changes
    | viewport session id =>
      simp only [Events.advance] at ran
      split at ran
      · cases ran
        exact ordered.keep found rfl (relies_finished _ _)
      · cases ran
        exact ordered.changeAndStore found changes (stores_store _ _ _)
  | storeInterest id pending =>
    simp only [Events.advance] at ran
    split at ran
    · rename_i queue absent returned
      cases ran
      refine ⟨⟨fun other present => ?_, ordered.whole.queues⟩, ⟨nofun, ?_, ?_⟩, .refl _⟩
      · refine (ordered.whole.settles other present).elsewhere found rfl ?_
        rintro value ⟨⟩
        cases absent.symm.trans present
      · rintro _ _ ⟨⟩
        exact relies.subscribing id queue (by rw [Task.subscribing, returned, Option.map_some])
      · rintro _ _ ⟨⟩
        exact absent
    · cases ran
      refine ordered.storeInterest found (stores_store _ _ _) fun present => ?_
      rw [StoresCurrent, found] at current
      rcases current present with right | ⟨place, -, elsewhere, storing⟩
      · exact .inl right
      · obtain ⟨waiting, there, stores⟩ := Option.bind_eq_some_iff.mp storing
        exact .inr ⟨place, waiting, elsewhere, there, stores⟩
  | withdraw id queue =>
    cases ran
    exact ordered.withdraw found
  | finished queue => cases ran

end Ordered

end Invariant

/-- The core object knows what its subscribers ask for, and each event that one of them asks for goes to
its queue. -/
structure Delivers (hub : Hub) (target : Target) : Prop where
  eventInterest : (hub.channels target).eventInterest = combineEventInterest (hub.subscriptions target)
  delivered : ∀ subscription ∈ hub.subscriptions target, ∀ kind, subscription.interest &&& kind ≠ 0 →
    subscription.eventQueue ∈ hub.delivered target kind

lemma Queues.delivers (queues : Queues hub) (present : (hub.channels target).hasCore = true)
    (right : (hub.channels target).eventInterest = combineEventInterest (hub.subscriptions target)) :
    Delivers hub target where
  eventInterest := right
  delivered subscription there kind asked := by
    have heard : (hub.channels target).hasCore = true ∧ kind &&& (hub.channels target).eventInterest ≠ 0 := by
      rw [right]
      exact ⟨present, combineEventInterest_and there asked⟩
    have collected : subscription.eventQueue ∈ collectEventSubscribers (hub.subscriptions target) kind :=
      List.mem_map.mpr ⟨subscription, List.mem_filter.mpr ⟨there, decide_eq_true asked⟩, rfl⟩
    rw [Hub.delivered, if_pos heard]
    refine List.mem_filter.mpr ⟨collected, ?_⟩
    rw [(queues.registered target subscription there).2]
    rfl

/-- As long as no call stores an interest that is out of date, with no other call to put it right, every
event goes to all subscribers that ask for it whenever no call is in progress. -/
theorem subscribers_get_events {known hasCore : Target → Bool} {system : System Hub Task}
    (reached : Transition.Reaches (step Task.begin advance) StoresCurrent ⟨.start known hasCore, []⟩ system)
    (idle : ∀ task ∈ system.tasks, ∃ queue, task = .finished queue) (target : Target)
    (present : (system.shared.channels target).hasCore = true) : Delivers system.shared target := by
  have ordered : InOrder system := by
    refine Holds.reached reached id (.empty ⟨fun _ _ => .inl rfl, nofun, nofun, nofun⟩) ?_ ?_
    · intro system call ordered _
      refine ⟨⟨fun target present => ?_, ordered.whole.queues⟩, ⟨nofun, nofun, nofun⟩, fun _ _ => trivial⟩
      rcases ordered.whole.settles target present with right | ⟨place, waiting, there, stores⟩
      · exact .inl right
      · refine .inr ⟨place, waiting, ?_, stores⟩
        rw [List.getElem?_append_left (List.getElem?_eq_some_iff.mp there).1, there]
    · intro system index outcome task shared moved ordered current found ran
      have orderly := InOrder.advance ordered found current ran
      exact ⟨orderly.consistent, orderly.relies, fun place other _ there =>
        ⟨(ordered.each place other there).extend orderly.grows, trivial⟩⟩
  refine ordered.whole.queues.delivers present ?_
  rcases ordered.whole.settles target present with right | ⟨place, waiting, there, stores⟩
  · exact right
  · obtain ⟨queue, rfl⟩ := idle waiting (List.mem_of_getElem? there)
    cases stores

instance (system : System Hub Task) (event : Event Call Unit) :
    Decidable (StoresCurrent system event) := by
  unfold StoresCurrent
  split
  · infer_instance
  · split <;> infer_instance

def subscribeSession (interest : BitVec 32) : Call := ⟨.session 1, .subscribe interest⟩

/-- Two threads subscribe to a session, and each has changed the list. -/
def twoSubscribers : List (Event Call Unit) :=
  [.spawn (subscribeSession 1), .spawn (subscribeSession 2), .advance 0 (), .advance 1 (), .advance 0 (),
    .advance 1 ()]

lemma idle_pair (first second : Option Nat) :
    ∀ task ∈ [Task.finished first, .finished second], ∃ queue, task = .finished queue :=
  List.forall_mem_cons.mpr ⟨⟨first, rfl⟩, List.forall_mem_singleton.mpr ⟨second, rfl⟩⟩

/-- The interest of the first one alone is stored last: the second one gets nothing. -/
theorem second_subscriber_gets_nothing :
    ∃ system, Transition.Reaches (step Task.begin advance) (fun _ _ => True)
        ⟨.start (fun _ => true) (fun _ => true), []⟩ system ∧
      (∀ task ∈ system.tasks, ∃ queue, task = .finished queue) ∧
      ⟨1, 2⟩ ∈ system.shared.subscriptions (.session 1) ∧ system.shared.delivered (.session 1) 2 = [] ∧
      ¬ Delivers system.shared (.session 1) := by
  obtain ⟨system, reached, shows⟩ := Transition.exists_reaches (step Task.begin advance) (fun _ _ => True)
    ⟨.start (fun _ => true) (fun _ => true), []⟩
    (fun system => system.tasks = [.finished (some 0), .finished (some 1)] ∧
      ⟨1, 2⟩ ∈ system.shared.subscriptions (.session 1) ∧ system.shared.delivered (.session 1) 2 = [])
    (twoSubscribers ++ [.advance 1 (), .advance 0 ()]) (by decide +kernel)
  rw [decide_eq_true_eq] at shows
  obtain ⟨tasks, listed, nothing⟩ := shows
  refine ⟨system, reached, ?_, listed, nothing, fun delivers => ?_⟩
  · rw [tasks]
    exact idle_pair _ _
  · have got := delivers.delivered ⟨1, 2⟩ listed 2 (by decide)
    rw [nothing] at got
    cases got

/-- In the other order both get their events. -/
theorem subscribers_get_events_in_order :
    ∃ system, Transition.Reaches (step Task.begin advance) StoresCurrent
        ⟨.start (fun _ => true) (fun _ => true), []⟩ system ∧
      system.shared.subscriptions (.session 1) = [⟨0, 1⟩, ⟨1, 2⟩] ∧ Delivers system.shared (.session 1) := by
  obtain ⟨system, reached, shows⟩ := Transition.exists_reaches (step Task.begin advance) StoresCurrent
    ⟨.start (fun _ => true) (fun _ => true), []⟩
    (fun system => system.tasks = [.finished (some 0), .finished (some 1)] ∧
      system.shared.subscriptions (.session 1) = [⟨0, 1⟩, ⟨1, 2⟩] ∧
      (system.shared.channels (.session 1)).hasCore = true)
    (twoSubscribers ++ [.advance 0 (), .advance 1 ()]) (by decide +kernel)
  rw [decide_eq_true_eq] at shows
  obtain ⟨tasks, listed, present⟩ := shows
  refine ⟨system, reached, listed, subscribers_get_events reached ?_ (.session 1) present⟩
  rw [tasks]
  exact idle_pair _ _

end OmegaEdit.Server.Events
