import Mathlib.Logic.Function.Basic
import OmegaEdit.Library.Threads

/-! The session manager of the server: calls by any number of threads, cut at the places where
`mutex_` is free, so that each step is one critical section. A `SessionInfo` is an object that
calls may go on using when it has been removed from `sessions_`, also when another one has been
registered under the same id. Validation of ids and paths, sizes and time stamps are left out. -/
namespace OmegaEdit.Server

/-- Session ids; generated ones are strictly increasing. -/
abbrev SessionId := Nat

/-- Canonical file paths. -/
abbrev Path := String

structure SessionInfo where
  sessionId : SessionId
  canonicalFilePath : Option Path
  checkpointDirectory : String
  attachmentCount : Nat
  hasSession : Bool
  initializationComplete : Bool
  transformInProgress : Bool
  activeMutations : Nat
deriving DecidableEq, Repr

/-- The maps of the manager; objects are numbered in the order of their creation. -/
structure Manager where
  sessions : SessionId → Option Nat
  fileSessionsByPath : Path → Option SessionId
  infos : Nat → SessionInfo
  objects : Nat
  generated : SessionId

/-- A `SessionInfo` before it is filled in. -/
def SessionInfo.blank : SessionInfo := ⟨0, none, "", 0, false, false, false, 0⟩

def Manager.create : Manager := ⟨fun _ => none, fun _ => none, fun _ => .blank, 0, 0⟩

inductive SessionCreateError where
  | alreadyExists
  | coreError
deriving DecidableEq, Repr

inductive SessionOperationKind where
  | mutation
  | transform
deriving DecidableEq, Repr

/-- `SessionOperationStartResult` of an operation that is not started. -/
inductive SessionOperationRefusal where
  | sessionNotFound
  | transformInProgress
  | mutationInProgress
deriving DecidableEq, Repr

/-- What a call returns. -/
inductive Reply where
  | created (id : SessionId)
  | failed (error : SessionCreateError)
  | destroyed (id : SessionId) (found : Bool)
  | detached (id : SessionId) (found : Bool)
  | refused (refusal : SessionOperationRefusal)
  | released
deriving DecidableEq, Repr

/-- The arguments of `create_session`: no path for a session that is not backed by a file. -/
structure CreateRequest where
  path : Option Path
  desiredId : Option SessionId
  checkpointDirectory : Option String
deriving DecidableEq, Repr

/-- The path under which a session can be shared. -/
def CreateRequest.sharedPath (request : CreateRequest) : Option Path :=
  if request.desiredId.isNone then request.path else none

inductive Call where
  | createSession (request : CreateRequest)
  | destroySession (id : SessionId)
  | detachSession (id : SessionId)
  | tryBegin (kind : SessionOperationKind) (id : SessionId)
deriving DecidableEq, Repr

/-- A call in progress, by what it does next. A guard is a call that has begun its operation; it also
keeps which object that was. -/
inductive Task where
  | begin (call : Call)
  | awaitInitialization (path : Path) (object : Nat)
  | checkCore (path : Path) (object : Nat)
  | attach (path : Path) (object : Nat)
  | openCore (shared : Option Path) (id : SessionId) (object : Nat)
  | removeReserved (shared : Option Path) (id : SessionId) (object : Nat)
  | publish (shared : Option Path) (id : SessionId) (object : Nat) (directory : String)
  | completeInitialization (object : Nat) (reply : Reply)
  | destroyInfo (object : Nat) (reply : Reply)
  | destroyCore (object : Nat) (reply : Reply)
  | guarded (kind : SessionOperationKind) (id : SessionId) (object : Nat)
  | finished (reply : Reply)
deriving DecidableEq, Repr

/-- What the environment gives to a step: the next id of the generator, a new directory for checkpoints,
the directory of the core session that was created, and whether the core knows a size. -/
structure Outcome where
  identifier : SessionId
  managedDirectory : Option String
  coreDirectory : Option String
  sized : Bool
deriving DecidableEq, Repr

namespace Manager
variable (manager : Manager)

def modify (object : Nat) (change : SessionInfo → SessionInfo) : Manager :=
  { manager with infos := Function.update manager.infos object (change (manager.infos object)) }

def register (id : SessionId) (object : Option Nat) : Manager :=
  { manager with sessions := Function.update manager.sessions id object }

def mapPath (path : Path) (id : Option SessionId) : Manager :=
  { manager with fileSessionsByPath := Function.update manager.fileSessionsByPath path id }

section Fields
variable {manager} {id other : SessionId} {object place : Nat} {path route : Path}

@[simp] lemma sessions_register_self {new : Option Nat} : (manager.register id new).sessions id = new := by
  simp only [register, Function.update_self]

@[simp] lemma sessions_register_of_ne {new : Option Nat} (apart : other ≠ id) :
    (manager.register id new).sessions other = manager.sessions other := by
  simp only [register, Function.update_of_ne apart]

@[simp] lemma fileSessionsByPath_register {new : Option Nat} :
    (manager.register id new).fileSessionsByPath = manager.fileSessionsByPath := rfl

@[simp] lemma infos_modify_self {change : SessionInfo → SessionInfo} :
    (manager.modify object change).infos object = change (manager.infos object) := by
  simp only [modify, Function.update_self]

@[simp] lemma infos_modify_of_ne {change : SessionInfo → SessionInfo} (apart : place ≠ object) :
    (manager.modify object change).infos place = manager.infos place := by
  simp only [modify, Function.update_of_ne apart]

lemma modify_keeps {β : Type} {f : SessionInfo → SessionInfo} (field : SessionInfo → β)
    (kept : ∀ info, field (f info) = field info) (manager : Manager) (object place : Nat) :
    field ((manager.modify object f).infos place) = field (manager.infos place) := by
  rcases eq_or_ne place object with rfl | apart
  · rw [infos_modify_self, kept]
  · rw [infos_modify_of_ne apart]

@[simp] lemma fileSessionsByPath_mapPath_self {new : Option SessionId} :
    (manager.mapPath path new).fileSessionsByPath path = new := by
  simp only [mapPath, Function.update_self]

@[simp] lemma fileSessionsByPath_mapPath_of_ne {new : Option SessionId} (apart : route ≠ path) :
    (manager.mapPath path new).fileSessionsByPath route = manager.fileSessionsByPath route := by
  simp only [mapPath, Function.update_of_ne apart]

lemma mapPath_eq_self {new : Option SessionId} (leads : manager.fileSessionsByPath path = new) :
    manager.mapPath path new = manager := by
  rw [mapPath, ← leads, Function.update_eq_self]

end Fields

/-- `reserve_new_session_locked` with an id that is not in use. -/
def reserve (request : CreateRequest) (id : SessionId) (outcome : Outcome) : Manager × Task :=
  match request.checkpointDirectory <|> outcome.managedDirectory with
  | none => (manager, .finished (.failed .coreError))
  | some directory =>
    let object := manager.objects
    let info := ⟨id, request.path, directory, 1, false, false, false, 0⟩
    let reserved := { manager.register id object with
      infos := Function.update manager.infos object info
      objects := object + 1 }
    let mapped := match request.sharedPath with
      | some path => reserved.mapPath path id
      | none => reserved
    (mapped, .openCore request.sharedPath id object)

/-- The reservation of an id that was asked for, or of a generated one. -/
def reserveNew (request : CreateRequest) (outcome : Outcome) : Option (Manager × Task) :=
  match request.desiredId with
  | some id =>
    if (manager.sessions id).isSome then some (manager, .finished (.failed .alreadyExists))
    else some (manager.reserve request id outcome)
  | none =>
    -- the generator goes on until it finds an id that is not in use
    if manager.generated < outcome.identifier ∧ (manager.sessions outcome.identifier).isNone then
      some ({ manager with generated := outcome.identifier }.reserve request outcome.identifier outcome)
    else none

/-- `create_session` up to the end of its first critical section. -/
def createSession (request : CreateRequest) (outcome : Outcome) : Option (Manager × Task) :=
  match request.sharedPath with
  | none => manager.reserveNew request outcome
  | some path =>
    match manager.fileSessionsByPath path with
    | none => manager.reserveNew request outcome
    | some id =>
      match manager.sessions id with
      | none => (manager.mapPath path none).reserveNew request outcome
      | some object =>
        if request.checkpointDirectory.all (· = (manager.infos object).checkpointDirectory) then
          some (manager, .awaitInitialization path object)
        else some (manager, .finished (.failed .alreadyExists))

/-- The path of a reservation that is given up, if it still leads to it. -/
def releasePath (shared : Option Path) (id : SessionId) : Manager :=
  match shared with
  | some path => if manager.fileSessionsByPath path = some id then manager.mapPath path none else manager
  | none => manager

/-- `destroy_session_locked` up to the end of its first critical section. -/
def destroySessionLocked (object : Nat) (reply : Reply) : Manager × Task :=
  let info := manager.infos object
  ((manager.releasePath info.canonicalFilePath info.sessionId).register info.sessionId none,
    .destroyInfo object reply)

def destroySession (id : SessionId) : Manager × Task :=
  match manager.sessions id with
  | none => (manager, .finished (.destroyed id false))
  | some object => manager.destroySessionLocked object (.destroyed id true)

def detachSession (id : SessionId) : Manager × Task :=
  match manager.sessions id with
  | none => (manager, .finished (.detached id false))
  | some object =>
    if (manager.infos object).attachmentCount > 1 then
      (manager.modify object fun info => { info with attachmentCount := info.attachmentCount - 1 },
        .finished (.detached id true))
    else manager.destroySessionLocked object (.detached id true)

def tryBegin (kind : SessionOperationKind) (id : SessionId) : Manager × Task :=
  match manager.sessions id with
  | none => (manager, .finished (.refused .sessionNotFound))
  | some object =>
    let info := manager.infos object
    if !info.hasSession then (manager, .finished (.refused .sessionNotFound))
    else if info.transformInProgress then (manager, .finished (.refused .transformInProgress))
    else
      match kind with
      | .mutation =>
        (manager.modify object fun info => { info with activeMutations := info.activeMutations + 1 },
          .guarded .mutation id object)
      | .transform =>
        if info.activeMutations > 0 then (manager, .finished (.refused .mutationInProgress))
        else
          (manager.modify object fun info => { info with transformInProgress := true },
            .guarded .transform id object)

/-- `finish_operation`: the session is looked up again by its id. -/
def finishOperation (kind : SessionOperationKind) (id : SessionId) : Manager :=
  match manager.sessions id with
  | none => manager
  | some object =>
    match kind with
    | .transform => manager.modify object fun info => { info with transformInProgress := false }
    | .mutation => manager.modify object fun info => { info with activeMutations := info.activeMutations - 1 }

/-- The session that `lock_session` finds. -/
def lockSession (id : SessionId) : Option Nat :=
  (manager.sessions id).filter fun object => (manager.infos object).hasSession

end Manager

def begin (manager : Manager) (outcome : Outcome) : Call → Option (Manager × Task)
  | .createSession request => manager.createSession request outcome
  | .destroySession id => some (manager.destroySession id)
  | .detachSession id => some (manager.detachSession id)
  | .tryBegin kind id => some (manager.tryBegin kind id)

/-- The next step of a call; a call that has to wait cannot take it. -/
def advance (manager : Manager) (task : Task) (outcome : Outcome) : Option (Manager × Task) :=
  match task with
  | .begin call => begin manager outcome call
  | .awaitInitialization path object =>
    if (manager.infos object).initializationComplete then some (manager, .checkCore path object) else none
  | .checkCore path object =>
    if (manager.infos object).hasSession && outcome.sized then some (manager, .attach path object)
    else some (manager, .finished (.failed .coreError))
  | .attach _ object =>
    let id := (manager.infos object).sessionId
    if manager.sessions id = some object then
      some (manager.modify object fun info => { info with attachmentCount := info.attachmentCount + 1 },
        .finished (.created id))
    else some (manager, .finished (.failed .coreError))
  | .openCore shared id object =>
    match outcome.coreDirectory with
    | none => some (manager, .removeReserved shared id object)
    | some directory => some (manager, .publish shared id object directory)
  | .removeReserved shared id object =>
    let removed := if manager.sessions id = some object then manager.register id none else manager
    some (removed.releasePath shared id, .completeInitialization object (.failed .coreError))
  | .publish shared id object directory =>
    if manager.sessions id = some object then
      let published := manager.modify object fun info => { info with
        hasSession := true
        checkpointDirectory := if directory = "" then info.checkpointDirectory else directory }
      let mapped := match shared with
        | some path => published.mapPath path id
        | none => published
      some (mapped, .completeInitialization object (.created id))
    else some (manager, .completeInitialization object (.failed .coreError))
  | .completeInitialization object reply =>
    some (manager.modify object fun info => { info with initializationComplete := true }, .finished reply)
  | .destroyInfo object reply =>
    some (manager.modify object fun info => { info with initializationComplete := true },
      .destroyCore object reply)
  | .destroyCore object reply =>
    some (manager.modify object fun info => { info with hasSession := false }, .finished reply)
  | .guarded kind id _ => some (manager.finishOperation kind id, .finished .released)
  | .finished _ => none

section Steps
variable {manager middle next : Manager} {task moved : Task} {outcome : Outcome} {request : CreateRequest}
  {id : SessionId}

/-- The sessions stay as they are; paths and the generator may change. -/
structure SameSessions (manager next : Manager) : Prop where
  sessions : next.sessions = manager.sessions
  infos : next.infos = manager.infos
  objects : next.objects = manager.objects

/-- A new object is registered. -/
structure Adds (manager next : Manager) (info : SessionInfo) : Prop where
  sessions : next.sessions = Function.update manager.sessions info.sessionId (some manager.objects)
  infos : next.infos = Function.update manager.infos manager.objects info
  objects : next.objects = manager.objects + 1

/-- The path of a session that can be shared leads to it. -/
def Manager.mapShared (manager : Manager) (shared : Option Path) (id : SessionId) : Manager :=
  match shared with
  | some path => manager.mapPath path id
  | none => manager

/-- What a step of a call can do. -/
inductive Advances (manager : Manager) : Task → Manager → Task → Prop
  | ended {call : Call} {next : Manager} {reply : Reply} (same : SameSessions manager next)
      (nothing : ∀ id, reply ≠ .created id) : Advances manager (.begin call) next (.finished reply)
  | found {request : CreateRequest} {path : Path} {object : Nat} (shared : request.sharedPath = some path) :
      Advances manager (.begin (.createSession request)) manager (.awaitInitialization path object)
  | reserved {request : CreateRequest} {next : Manager} (id : SessionId) (directory : String)
      (adds : Adds manager next ⟨id, request.path, directory, 1, false, false, false, 0⟩) :
      Advances manager (.begin (.createSession request)) next (.openCore request.sharedPath id manager.objects)
  | removed {call : Call} {id : SessionId} {object : Nat} {reply : Reply}
      (live : manager.sessions id = some object) (nothing : ∀ id, reply ≠ .created id) :
      Advances manager (.begin call) (manager.destroySessionLocked object reply).1 (.destroyInfo object reply)
  | detached {id : SessionId} {object : Nat} : Advances manager (.begin (.detachSession id))
      (manager.modify object fun info => { info with attachmentCount := info.attachmentCount - 1 })
      (.finished (.detached id true))
  | mutation {id : SessionId} {object : Nat} (live : manager.sessions id = some object)
      (free : (manager.infos object).transformInProgress = false) :
      Advances manager (.begin (.tryBegin .mutation id))
        (manager.modify object fun info => { info with activeMutations := info.activeMutations + 1 })
        (.guarded .mutation id object)
  | transform {id : SessionId} {object : Nat} (live : manager.sessions id = some object)
      (free : (manager.infos object).transformInProgress = false)
      (idle : (manager.infos object).activeMutations = 0) : Advances manager (.begin (.tryBegin .transform id))
        (manager.modify object fun info => { info with transformInProgress := true })
        (.guarded .transform id object)
  | awaited {path : Path} {object : Nat} :
      Advances manager (.awaitInitialization path object) manager (.checkCore path object)
  | seen {path : Path} {object : Nat} (opened : (manager.infos object).hasSession = true) :
      Advances manager (.checkCore path object) manager (.attach path object)
  | unseen {path : Path} {object : Nat} :
      Advances manager (.checkCore path object) manager (.finished (.failed .coreError))
  | attached {path : Path} {object : Nat}
      (live : manager.sessions (manager.infos object).sessionId = some object) :
      Advances manager (.attach path object)
        (manager.modify object fun info => { info with attachmentCount := info.attachmentCount + 1 })
        (.finished (.created (manager.infos object).sessionId))
  | unattached {path : Path} {object : Nat} :
      Advances manager (.attach path object) manager (.finished (.failed .coreError))
  | opened {shared : Option Path} {id : SessionId} {object : Nat} (directory : String) :
      Advances manager (.openCore shared id object) manager (.publish shared id object directory)
  | unopened {shared : Option Path} {id : SessionId} {object : Nat} :
      Advances manager (.openCore shared id object) manager (.removeReserved shared id object)
  | withdrawn {shared : Option Path} {id : SessionId} {object : Nat} :
      Advances manager (.removeReserved shared id object)
        ((if manager.sessions id = some object then manager.register id none else manager).releasePath shared id)
        (.completeInitialization object (.failed .coreError))
  | published {shared : Option Path} {id : SessionId} {object : Nat} {directory : String}
      (live : manager.sessions id = some object) :
      Advances manager (.publish shared id object directory)
        ((manager.modify object fun info => { info with
          hasSession := true
          checkpointDirectory := if directory = "" then info.checkpointDirectory else directory }).mapShared shared id)
        (.completeInitialization object (.created id))
  | unpublished {shared : Option Path} {id : SessionId} {object : Nat} {directory : String}
      (dead : manager.sessions id ≠ some object) :
      Advances manager (.publish shared id object directory) manager
        (.completeInitialization object (.failed .coreError))
  | completed {object : Nat} {reply : Reply} : Advances manager (.completeInitialization object reply)
      (manager.modify object fun info => { info with initializationComplete := true }) (.finished reply)
  | destroyedInfo {object : Nat} {reply : Reply} : Advances manager (.destroyInfo object reply)
      (manager.modify object fun info => { info with initializationComplete := true })
      (.destroyCore object reply)
  | destroyedCore {object : Nat} {reply : Reply} : Advances manager (.destroyCore object reply)
      (manager.modify object fun info => { info with hasSession := false }) (.finished reply)
  | released {kind : SessionOperationKind} {id : SessionId} {object : Nat} :
      Advances manager (.guarded kind id object) (manager.finishOperation kind id) (.finished .released)

lemma SameSessions.refl (manager : Manager) : SameSessions manager manager := ⟨rfl, rfl, rfl⟩

lemma sameSessions_releasePath (manager : Manager) (shared : Option Path) (id : SessionId) :
    SameSessions manager (manager.releasePath shared id) := by
  cases shared with
  | none => exact .refl manager
  | some path =>
    rw [Manager.releasePath]
    split
    · exact ⟨rfl, rfl, rfl⟩
    · exact .refl manager

lemma sameSessions_mapShared (manager : Manager) (shared : Option Path) (id : SessionId) :
    SameSessions manager (manager.mapShared shared id) := by
  cases shared with
  | none => exact .refl manager
  | some path => exact ⟨rfl, rfl, rfl⟩

lemma advances_reserve (same : SameSessions manager middle)
    (ran : middle.reserve request id outcome = (next, moved)) :
    Advances manager (.begin (.createSession request)) next moved := by
  rw [Manager.reserve] at ran
  split at ran
  · cases ran
    exact .ended same nofun
  · rename_i directory _
    cases ran
    rw [same.objects]
    refine .reserved id directory ?_
    cases request.sharedPath with
    | none => exact ⟨by simp only [Manager.register, same.sessions], by simp only [same.infos], rfl⟩
    | some path =>
      exact ⟨by simp only [Manager.mapPath, Manager.register, same.sessions],
        by simp only [Manager.mapPath, same.infos], rfl⟩

lemma advances_reserveNew (same : SameSessions manager middle)
    (ran : middle.reserveNew request outcome = some (next, moved)) :
    Advances manager (.begin (.createSession request)) next moved := by
  rw [Manager.reserveNew] at ran
  split at ran
  · split at ran
    · cases ran
      exact .ended same nofun
    · exact advances_reserve same (Option.some.inj ran)
  · split at ran
    · have generating : SameSessions manager { middle with generated := outcome.identifier } :=
        ⟨same.sessions, same.infos, same.objects⟩
      exact advances_reserve generating (Option.some.inj ran)
    · cases ran

lemma advances_createSession (ran : manager.createSession request outcome = some (next, moved)) :
    Advances manager (.begin (.createSession request)) next moved := by
  rw [Manager.createSession] at ran
  split at ran
  · exact advances_reserveNew (.refl manager) ran
  · rename_i path shared
    split at ran
    · exact advances_reserveNew (.refl manager) ran
    · split at ran
      · have unmapped : SameSessions manager (manager.mapPath path none) := ⟨rfl, rfl, rfl⟩
        exact advances_reserveNew unmapped ran
      · split at ran
        · cases ran
          exact .found shared
        · cases ran
          exact .ended (.refl manager) nofun

lemma advances_tryBegin {kind : SessionOperationKind} (ran : manager.tryBegin kind id = (next, moved)) :
    Advances manager (.begin (.tryBegin kind id)) next moved := by
  rw [Manager.tryBegin] at ran
  split at ran
  · cases ran
    exact .ended (.refl manager) nofun
  · rename_i object live
    simp only at ran
    split at ran
    · cases ran
      exact .ended (.refl manager) nofun
    · split at ran
      · cases ran
        exact .ended (.refl manager) nofun
      · rename_i free
        rw [Bool.not_eq_true] at free
        cases kind with
        | mutation =>
          cases ran
          exact .mutation live free
        | transform =>
          simp only at ran
          split at ran
          · cases ran
            exact .ended (.refl manager) nofun
          · rename_i idle
            cases ran
            exact .transform live free (Nat.eq_zero_of_not_pos idle)

lemma advances_begin {call : Call} (ran : begin manager outcome call = some (next, moved)) :
    Advances manager (.begin call) next moved := by
  cases call with
  | createSession request => exact advances_createSession ran
  | destroySession id =>
    rw [begin, Manager.destroySession] at ran
    split at ran
    · cases ran
      exact .ended (.refl manager) nofun
    · rename_i object live
      cases ran
      exact .removed live nofun
  | detachSession id =>
    rw [begin, Manager.detachSession] at ran
    split at ran
    · cases ran
      exact .ended (.refl manager) nofun
    · rename_i object live
      split at ran
      · cases ran
        exact .detached
      · cases ran
        exact .removed live nofun
  | tryBegin kind id => exact advances_tryBegin (Option.some.inj ran)

/-- Every step does one of these. -/
lemma advances (ran : advance manager task outcome = some (next, moved)) :
    Advances manager task next moved := by
  cases task with
  | begin call => exact advances_begin ran
  | awaitInitialization path object =>
    rw [advance] at ran
    split at ran
    · cases ran
      exact .awaited
    · cases ran
  | checkCore path object =>
    rw [advance] at ran
    split at ran
    · rename_i opened
      cases ran
      exact .seen (Bool.and_eq_true_iff.mp opened).1
    · cases ran
      exact .unseen
  | attach path object =>
    simp only [advance] at ran
    split at ran
    · rename_i live
      cases ran
      exact .attached live
    · cases ran
      exact .unattached
  | openCore shared id object =>
    rw [advance] at ran
    split at ran
    · cases ran
      exact .unopened
    · rename_i directory _
      cases ran
      exact .opened directory
  | removeReserved shared id object =>
    cases ran
    exact .withdrawn
  | publish shared id object directory =>
    simp only [advance] at ran
    split at ran
    · rename_i live
      cases ran
      exact .published live
    · rename_i dead
      cases ran
      exact .unpublished dead
  | completeInitialization object reply =>
    cases ran
    exact .completed
  | destroyInfo object reply =>
    cases ran
    exact .destroyedInfo
  | destroyCore object reply =>
    cases ran
    exact .destroyedCore
  | guarded kind id object =>
    cases ran
    exact .released
  | finished reply => cases ran

end Steps

end OmegaEdit.Server
