import OmegaEdit.Library.Locks
import OmegaEdit.Server.Manager

/-! The locks of the session manager. The calls of `Manager` are taken apart further, to the
places where a lock is taken, and the calls about viewports and subscriptions and the work that
is done with the core lock of a session held are added. Of viewports and subscriptions only what
decides about locks is kept. A callback of the core takes a subscription lock. -/
namespace OmegaEdit.Server.Locking

abbrev ViewportId := Nat

inductive Lock where
  | mutex
  | core (object : Nat)
  | sessionSubscriptions (object : Nat)
  | viewportSubscriptions (viewport : Nat)
  | initialization (object : Nat)
deriving DecidableEq, Repr

/-- The manager with the viewports of each session, by id and object; viewport objects are numbered, and
`opened` tells which ones have a core viewport. -/
structure Data where
  manager : Manager
  viewports : Nat → List (ViewportId × Nat)
  viewportObjects : Nat
  opened : Nat → Bool

def Data.create : Data := ⟨.create, fun _ => [], 0, fun _ => false⟩

inductive Call where
  | manage (call : Server.Call)
  | createViewport (id : SessionId) (desiredId : Option ViewportId)
  | destroyViewport (id : SessionId) (viewport : ViewportId)
  | lockSession (id : SessionId)
  | lockViewport (id : SessionId) (viewport : ViewportId)
  | changeSession (id : SessionId) (subscribes : Bool)
  | changeViewport (id : SessionId) (viewport : ViewportId) (subscribes : Bool)
deriving DecidableEq, Repr

/-- A list of subscriptions that is used while the core lock of its session is held. -/
inductive Callback where
  | session
  | viewport (object : Nat)
deriving DecidableEq, Repr

def Callback.lock (object : Nat) : Callback → Lock
  | .session => .sessionSubscriptions object
  | .viewport target => .viewportSubscriptions target

/-- What follows when the core has made its callbacks. -/
inductive After where
  | hold
  | viewportOpened (viewport : Nat)
  | viewportClosed (viewport : Nat)
  | sessionDestroyed (reply : Reply)
deriving DecidableEq, Repr

/-- The part of its code that a call is in. -/
inductive Part where
  | manage (task : Task)
  | awaitComplete (path : Path) (object : Nat)
  | cleanup (task : Task)
  | find (call : Call)
  | openViewport (id : SessionId) (object : Nat) (viewportId : ViewportId) (viewport : Nat)
  | eraseViewport (id : SessionId) (object : Nat) (viewportId : ViewportId)
  | closeViewport (object viewport : Nat)
  | callbacks (object : Nat) (remaining : List Callback) (after : After)
  | lockCore (object : Nat) (viewport : Option Nat)
  | hold (object : Nat)
  | progress (object : Nat) (id : SessionId)
  | progressTo (object target : Nat)
  | changeList (object : Nat) (subscribes : Bool)
  | storeInterest (object : Nat) (subscribes : Bool)
  | withdraw (object : Nat)
  | changeViewport (object viewport : Nat) (subscribes : Bool)
  | finished
deriving DecidableEq, Repr

/-- A call is about to take the lock of its part, has it, waits for another one as well, or has both. -/
inductive Place where
  | outside (part : Part)
  | inside (part : Part)
  | wanting (part : Part)
  | within (part : Part)
deriving DecidableEq, Repr

def outerOfTask : Task → Option Lock
  | .begin _ | .attach _ _ | .removeReserved _ _ _ | .publish _ _ _ _ | .guarded _ _ _ => some .mutex
  | .awaitInitialization _ object | .completeInitialization object _ | .destroyInfo object _ =>
    some (.initialization object)
  | .checkCore _ object | .destroyCore object _ => some (.core object)
  | .openCore _ _ _ | .finished _ => none

def Part.outer : Part → Option Lock
  | .manage task => outerOfTask task
  | .awaitComplete _ _ | .finished => none
  | .cleanup _ | .find _ => some .mutex
  | .openViewport _ object _ _ | .eraseViewport _ object _ | .closeViewport object _
  | .callbacks object _ _ | .lockCore object _ | .hold object | .progress object _
  | .progressTo object _ | .storeInterest object _ | .changeViewport object _ _ => some (.core object)
  | .changeList object _ | .withdraw object => some (.sessionSubscriptions object)

/-- The lock that is taken while the first one is held. -/
def Part.inner : Part → Option Lock
  | .manage (.publish _ _ object _) => some (.core object)
  | .eraseViewport _ _ _ | .progress _ _ => some .mutex
  | .closeViewport _ viewport | .changeViewport _ viewport _ => some (.viewportSubscriptions viewport)
  | .callbacks object (callback :: _) _ => some (callback.lock object)
  | .progressTo _ target => some (.sessionSubscriptions target)
  | _ => none

namespace Place

def holds : Place → List Lock
  | .outside _ => []
  | .inside part | .wanting part => part.outer.toList
  | .within part => part.inner.toList ++ part.outer.toList

def waits : Place → Option Lock
  | .outside part => part.outer
  | .wanting part => part.inner
  | .inside _ | .within _ => none

def acquired : Place → Place
  | .outside part => .inside part
  | .wanting part => .within part
  | place => place

def begin : Call → Place
  | .manage call => .outside (.manage (.begin call))
  | call => .outside (.find call)

end Place

/-- What a thread does next with the core lock of a session that it has locked. -/
inductive Action where
  | callCore (callbacks : List Callback)
  | publishTransformProgress (id : SessionId)
  | release
deriving DecidableEq, Repr

/-- What the environment gives to a step. -/
structure Choice where
  outcome : Outcome
  viewportId : ViewportId
  refused : Bool
  opens : Bool
  callbacks : List Callback
  action : Action
deriving DecidableEq, Repr

namespace Data
variable (data : Data)

def hasSession (object : Nat) : Bool := (data.manager.infos object).hasSession

def initializationComplete (object : Nat) : Bool := (data.manager.infos object).initializationComplete

def viewport (object : Nat) (id : ViewportId) : Option Nat := (data.viewports object).lookup id

def setViewports (object : Nat) (entries : List (ViewportId × Nat)) : Data :=
  { data with viewports := Function.update data.viewports object entries }

def addViewport (object : Nat) (id : ViewportId) : Data :=
  { data.setViewports object ((id, data.viewportObjects) :: data.viewports object) with
    viewportObjects := data.viewportObjects + 1 }

def removeViewport (object : Nat) (id : ViewportId) : Data :=
  data.setViewports object ((data.viewports object).filter fun entry => entry.1 ≠ id)

def setOpened (viewport : Nat) (isOpen : Bool) : Data :=
  { data with opened := Function.update data.opened viewport isOpen }

/-- The core viewports go with their session. -/
def closeViewports (object : Nat) : Data :=
  (data.viewports object).foldl (fun closed entry => closed.setOpened entry.2 false) data

/-- The next critical section of a call of the manager. -/
def run (task : Task) (outcome : Outcome) (place : Task → Place) : Option (Data × Place) :=
  match advance data.manager task outcome with
  | none => none
  | some (manager, moved) => some ({ data with manager := manager }, place moved)

/-- The first critical section of a call: the session and the viewport are looked up. -/
def find (call : Call) (choice : Choice) : Option (Data × Place) :=
  match call with
  | .manage _ => none
  | .createViewport id desiredId =>
    match data.manager.sessions id with
    | none => some (data, .outside .finished)
    | some object =>
      let viewportId := desiredId.getD choice.viewportId
      if choice.refused || (data.viewport object viewportId).isSome then some (data, .outside .finished)
      else
        some (data.addViewport object viewportId,
          .outside (.openViewport id object viewportId data.viewportObjects))
  | .destroyViewport id viewportId =>
    match data.manager.sessions id with
    | none => some (data, .outside .finished)
    | some object =>
      match data.viewport object viewportId with
      | none => some (data, .outside .finished)
      | some viewport =>
        some (data.removeViewport object viewportId, .outside (.closeViewport object viewport))
  | .lockSession id =>
    match data.manager.sessions id with
    | none => some (data, .outside .finished)
    | some object => some (data, .outside (.lockCore object none))
  | .lockViewport id viewportId =>
    match data.manager.sessions id with
    | none => some (data, .outside .finished)
    | some object =>
      match data.viewport object viewportId with
      | none => some (data, .outside .finished)
      | some viewport => some (data, .outside (.lockCore object (some viewport)))
  | .changeSession id subscribes =>
    match data.manager.sessions id with
    | none => some (data, .outside .finished)
    | some object => some (data, .outside (.changeList object subscribes))
  | .changeViewport id viewportId subscribes =>
    match data.manager.sessions id with
    | none => some (data, .outside .finished)
    | some object =>
      match data.viewport object viewportId with
      | none => some (data, .outside .finished)
      | some viewport => some (data, .outside (.changeViewport object viewport subscribes))

/-- A critical section of the manager that takes no other lock, or the check with which one begins that does. -/
def manage (task : Task) (choice : Choice) : Option (Data × Place) :=
  match task with
  | .awaitInitialization path object =>
    if data.initializationComplete object then data.run task choice.outcome fun moved => .outside (.manage moved)
    else some (data, .outside (.awaitComplete path object))
  | .publish _ id object _ =>
    if data.manager.sessions id = some object then some (data, .wanting (.manage task))
    else data.run task choice.outcome fun moved => .outside (.cleanup moved)
  | .removeReserved _ _ _ => data.run task choice.outcome fun moved => .outside (.cleanup moved)
  | .destroyCore object reply =>
    -- the lists of the session and of its viewports are cleared before the core session is destroyed
    some (data, .inside (.callbacks object (.session :: (data.viewports object).map (.viewport ·.2) ++
      choice.callbacks) (.sessionDestroyed reply)))
  | _ => data.run task choice.outcome fun moved => .outside (.manage moved)

/-- The end of what is done with a core lock held. -/
def finishCore (object : Nat) (choice : Choice) : After → Option (Data × Place)
  | .hold => some (data, .inside (.hold object))
  | .viewportOpened viewport =>
    some (data.setOpened viewport true, .outside .finished)
  | .viewportClosed viewport =>
    some (data.setOpened viewport false, .outside .finished)
  | .sessionDestroyed reply =>
    (data.closeViewports object).run (.destroyCore object reply) choice.outcome fun moved => .outside (.cleanup moved)

end Data

/-- What a call does when it has the locks that it needs. -/
def body (data : Data) (place : Place) (choice : Choice) : Option (Data × Place) :=
  match place with
  | .outside (.manage task) => data.run task choice.outcome fun moved => .outside (.manage moved)
  | .outside (.awaitComplete path object) =>
    if data.initializationComplete object then
      some (data, .outside (.manage (.awaitInitialization path object)))
    else none
  | .inside (.manage task) => data.manage task choice
  | .within (.manage task) => data.run task choice.outcome fun moved => .outside (.manage moved)
  | .inside (.cleanup task) => some (data, .outside (.manage task))
  | .inside (.find call) => data.find call choice
  | .inside (.openViewport id object viewportId viewport) =>
    if data.hasSession object && choice.opens then
      some (data, .inside (.callbacks object choice.callbacks (.viewportOpened viewport)))
    else some (data, .wanting (.eraseViewport id object viewportId))
  | .within (.eraseViewport id object viewportId) =>
    if data.manager.sessions id = some object then
      some (data.removeViewport object viewportId, .outside .finished)
    else some (data, .outside .finished)
  | .inside (.closeViewport object viewport) => some (data, .wanting (.closeViewport object viewport))
  | .within (.closeViewport object viewport) =>
    some (data, .inside (.callbacks object choice.callbacks (.viewportClosed viewport)))
  | .inside (.callbacks object (callback :: rest) after) =>
    some (data, .wanting (.callbacks object (callback :: rest) after))
  | .within (.callbacks object (_ :: rest) after) => some (data, .inside (.callbacks object rest after))
  | .inside (.callbacks object [] after) => data.finishCore object choice after
  | .inside (.lockCore object viewport) =>
    if data.hasSession object && viewport.all data.opened then some (data, .inside (.hold object))
    else some (data, .outside .finished)
  | .inside (.hold object) =>
    match choice.action with
    | .callCore callbacks => some (data, .inside (.callbacks object callbacks .hold))
    | .publishTransformProgress id => some (data, .wanting (.progress object id))
    | .release => some (data, .outside .finished)
  | .within (.progress object id) =>
    match data.manager.lockSession id with
    | none => some (data, .inside (.hold object))
    | some target => some (data, .wanting (.progressTo object target))
  | .within (.progressTo object _) => some (data, .inside (.hold object))
  | .inside (.changeList object subscribes) => some (data, .outside (.storeInterest object subscribes))
  | .inside (.storeInterest object subscribes) =>
    if !data.hasSession object && subscribes then some (data, .outside (.withdraw object))
    else some (data, .outside .finished)
  | .inside (.withdraw _) => some (data, .outside .finished)
  | .inside (.changeViewport object viewport subscribes) =>
    if !data.opened viewport && subscribes then some (data, .outside .finished)
    else some (data, .wanting (.changeViewport object viewport subscribes))
  | .within (.changeViewport _ _ _) => some (data, .outside .finished)
  | _ => none

lemma holds_acquired {place : Place} {lock : Lock} (waiting : place.waits = some lock) :
    place.acquired.holds = lock :: place.holds := by
  cases place with
  | outside part | wanting part =>
    rw [Place.waits] at waiting
    rw [Place.acquired, Place.holds, Place.holds, waiting]
    rfl
  | inside part | within part => cases waiting

end OmegaEdit.Server.Locking
