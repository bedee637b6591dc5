import OmegaEdit.Server.Locking

/-! The order in which locks are taken. Everywhere the core lock of a session comes before
`mutex_`, except where `create_session` publishes its session: there it is the other way round,
which is harmless as long as nobody waits for `mutex_` with the core lock of a session that is
still being opened. -/
namespace OmegaEdit.Server.Locking
open Threads
variable {manager next : Manager} {task moved : Task} {outcome : Outcome} {id : SessionId} {object : Nat}

section Managers

/-- The session has been reserved, and is neither published nor given up. -/
def opening (manager : Manager) (object : Nat) : Bool :=
  !(manager.infos object).hasSession && !(manager.infos object).initializationComplete

/-- Sessions are registered under their ids. -/
def Registered (manager : Manager) : Prop :=
  ∀ id object, manager.sessions id = some object →
    object < manager.objects ∧ (manager.infos object).sessionId = id

/-- What a step may do to the objects that exist: one may be opened, one may be initialized, and none
is registered again or goes back to being opened. -/
structure Goes (manager next : Manager) (opened completed : Option Nat) : Prop where
  objects : manager.objects ≤ next.objects
  sessionId : ∀ object < manager.objects, (next.infos object).sessionId = (manager.infos object).sessionId
  sessions : ∀ id, ∀ object < manager.objects, next.sessions id = some object →
    manager.sessions id = some object
  hasSession : ∀ object < manager.objects, (next.infos object).hasSession = true →
    (manager.infos object).hasSession = true ∨ opened = some object
  initialization : ∀ object < manager.objects, (next.infos object).initializationComplete = true →
    (manager.infos object).initializationComplete = true ∨ completed = some object
  complete : ∀ object < manager.objects, (manager.infos object).initializationComplete = true →
    (next.infos object).initializationComplete = true
  settled : ∀ object < manager.objects, opening manager object = false → opening next object = false
  registered : Registered manager → Registered next

variable {opened completed : Option Nat}

lemma goes_same (same : SameSessions manager next) : Goes manager next opened completed where
  objects := by rw [same.objects]
  sessionId object _ := by rw [same.infos]
  sessions id object _ live := by rwa [same.sessions] at live
  hasSession object _ after := .inl (by rwa [same.infos] at after)
  initialization object _ after := .inl (by rwa [same.infos] at after)
  complete object _ before := by rwa [same.infos]
  settled object _ before := by rwa [opening, same.infos]
  registered before id object live := by
    rw [same.sessions] at live
    rw [same.objects, same.infos]
    exact before id object live

lemma Goes.refl (manager : Manager) (opened completed : Option Nat) : Goes manager manager opened completed :=
  goes_same (.refl manager)

lemma Goes.trans {middle : Manager} (first : Goes manager middle opened completed)
    (second : Goes middle next opened completed) : Goes manager next opened completed where
  objects := le_trans first.objects second.objects
  sessionId object inside :=
    (second.sessionId object (lt_of_lt_of_le inside first.objects)).trans (first.sessionId object inside)
  sessions id object inside live :=
    first.sessions id object inside (second.sessions id object (lt_of_lt_of_le inside first.objects) live)
  hasSession object inside after := by
    rcases second.hasSession object (lt_of_lt_of_le inside first.objects) after with before | own
    · exact first.hasSession object inside before
    · exact .inr own
  initialization object inside after := by
    rcases second.initialization object (lt_of_lt_of_le inside first.objects) after with before | own
    · exact first.initialization object inside before
    · exact .inr own
  complete object inside before :=
    second.complete object (lt_of_lt_of_le inside first.objects) (first.complete object inside before)
  settled object inside before :=
    second.settled object (lt_of_lt_of_le inside first.objects) (first.settled object inside before)
  registered before := second.registered (first.registered before)

lemma goes_modify {change : SessionInfo → SessionInfo} (manager : Manager) (object : Nat)
    (sessionId : ∀ info, (change info).sessionId = info.sessionId)
    (hasSession : (change (manager.infos object)).hasSession = true →
      (manager.infos object).hasSession = true ∨ opened = some object)
    (initialization : (change (manager.infos object)).initializationComplete = true →
      (manager.infos object).initializationComplete = true ∨ completed = some object)
    (complete : (manager.infos object).initializationComplete = true →
      (change (manager.infos object)).initializationComplete = true)
    (settled : opening manager object = false → (!(change (manager.infos object)).hasSession &&
      !(change (manager.infos object)).initializationComplete) = false) :
    Goes manager (manager.modify object change) opened completed := by
  have named := manager.modify_keeps SessionInfo.sessionId sessionId object
  refine ⟨le_rfl, fun other _ => named other, fun _ _ _ live => live, ?_, ?_, ?_, ?_, ?_⟩
  · intro other _ after
    rcases eq_or_ne other object with rfl | apart
    · rw [Manager.infos_modify_self] at after
      exact hasSession after
    · rw [Manager.infos_modify_of_ne apart] at after
      exact .inl after
  · intro other _ after
    rcases eq_or_ne other object with rfl | apart
    · rw [Manager.infos_modify_self] at after
      exact initialization after
    · rw [Manager.infos_modify_of_ne apart] at after
      exact .inl after
  · intro other _ before
    rcases eq_or_ne other object with rfl | apart
    · rw [Manager.infos_modify_self]
      exact complete before
    · rwa [Manager.infos_modify_of_ne apart]
  · intro other _ before
    rcases eq_or_ne other object with rfl | apart
    · rw [opening, Manager.infos_modify_self]
      exact settled before
    · rwa [opening, Manager.infos_modify_of_ne apart]
  · intro registered id other live
    rw [named]
    exact registered id other live

lemma goes_modify_plain {change : SessionInfo → SessionInfo} (manager : Manager) (object : Nat)
    (sessionId : ∀ info, (change info).sessionId = info.sessionId)
    (hasSession : ∀ info, (change info).hasSession = info.hasSession)
    (initialization : ∀ info, (change info).initializationComplete = info.initializationComplete) :
    Goes manager (manager.modify object change) opened completed := by
  refine goes_modify manager object sessionId ?_ ?_ ?_ ?_
  · rw [hasSession]
    exact .inl
  · rw [initialization]
    exact .inl
  · rw [initialization]
    exact id
  · rw [hasSession, initialization]
    exact id

lemma goes_register_none (manager : Manager) (id : SessionId) :
    Goes manager (manager.register id none) opened completed := by
  have before : ∀ other object, (manager.register id none).sessions other = some object →
      manager.sessions other = some object := by
    intro other object live
    rcases eq_or_ne other id with rfl | apart
    · cases Manager.sessions_register_self.symm.trans live
    · rwa [Manager.sessions_register_of_ne apart] at live
  exact ⟨le_rfl, fun _ _ => rfl, fun other object _ => before other object, fun _ _ after => .inl after,
    fun _ _ after => .inl after, fun _ _ same => same, fun _ _ same => same,
    fun registered other object live => registered other object (before other object live)⟩

lemma goes_adds {info : SessionInfo} (adds : Adds manager next info) : Goes manager next opened completed := by
  have old : ∀ object < manager.objects, next.infos object = manager.infos object := by
    intro object inside
    rw [adds.infos, Function.update_of_ne (ne_of_lt inside)]
  have registered : ∀ id object, next.sessions id = some object →
      object = manager.objects ∧ id = info.sessionId ∨ manager.sessions id = some object := by
    intro id object live
    rw [adds.sessions] at live
    rcases eq_or_ne id info.sessionId with rfl | apart
    · rw [Function.update_self] at live
      cases live
      exact .inl ⟨rfl, rfl⟩
    · rw [Function.update_of_ne apart] at live
      exact .inr live
  refine ⟨?_, ?_, ?_, ?_, ?_, ?_, ?_, ?_⟩
  · rw [adds.objects]
    exact Nat.le_succ _
  · intro object inside
    rw [old object inside]
  · intro id object inside live
    exact (registered id object live).resolve_left fun new => ne_of_lt inside new.1
  · intro object inside after
    rw [old object inside] at after
    exact .inl after
  · intro object inside after
    rw [old object inside] at after
    exact .inl after
  · intro object inside before
    rwa [old object inside]
  · intro object inside before
    rwa [opening, old object inside]
  · intro before id object live
    rw [adds.objects]
    rcases registered id object live with ⟨rfl, rfl⟩ | live
    · rw [adds.infos, Function.update_self]
      exact ⟨Nat.lt_succ_self _, rfl⟩
    · obtain ⟨inside, named⟩ := before id object live
      rw [old object inside]
      exact ⟨Nat.lt_succ_of_lt inside, named⟩

lemma goes_destroySessionLocked (manager : Manager) (object : Nat) (reply : Reply) :
    Goes manager (manager.destroySessionLocked object reply).1 opened completed :=
  (goes_same (sameSessions_releasePath manager _ _)).trans (goes_register_none _ _)

end Managers

section Tasks

/-- The id and object of a session that is reserved and not yet published. -/
def creates : Task → Option (SessionId × Nat)
  | .openCore _ id object | .removeReserved _ id object | .publish _ id object _ => some (id, object)
  | _ => none

/-- The object that a creation has made and still has to declare initialized. -/
def initializes : Task → Option Nat
  | .openCore _ _ object | .removeReserved _ _ object | .publish _ _ object _
  | .completeInitialization object _ => some object
  | _ => none

def destroys : Task → Option Nat
  | .destroyInfo object _ | .destroyCore object _ => some object
  | _ => none

/-- The object that is opened by the next step. -/
def opens : Task → Option Nat
  | .publish _ _ object _ => some object
  | _ => none

/-- The object that is declared initialized by the next step. -/
def completes : Task → Option Nat
  | .completeInitialization object _ | .destroyInfo object _ => some object
  | _ => none

/-- What a call of the manager relies on. -/
structure TaskRelies (manager : Manager) (task : Task) : Prop where
  creates : ∀ id object, creates task = some (id, object) → object < manager.objects ∧
    (manager.infos object).sessionId = id ∧ (manager.infos object).hasSession = false ∧
      (manager.sessions id = some object → (manager.infos object).initializationComplete = false)
  initializes : ∀ object, initializes task = some object → object < manager.objects
  destroys : ∀ object, destroys task = some object → object < manager.objects ∧
    manager.sessions (manager.infos object).sessionId ≠ some object
  completed : ∀ object reply, task = .destroyCore object reply →
    (manager.infos object).initializationComplete = true

lemma taskRelies_plain (uncreated : Locking.creates task = none) (uninitialized : Locking.initializes task = none)
    (undestroyed : Locking.destroys task = none) : TaskRelies manager task where
  creates id object own := by cases uncreated.symm.trans own
  initializes object own := by cases uninitialized.symm.trans own
  destroys object own := by cases undestroyed.symm.trans own
  completed object reply own := by
    subst own
    cases undestroyed

lemma taskRelies_completeInitialization (reply : Reply) (inside : object < manager.objects) :
    TaskRelies manager (.completeInitialization object reply) where
  creates := nofun
  initializes := by
    rintro _ ⟨⟩
    exact inside
  destroys := nofun
  completed := nofun

lemma goes_advance (relies : TaskRelies manager task) (ran : advance manager task outcome = some (next, moved)) :
    Goes manager next (opens task) (completes task) := by
  cases advances ran with
  | ended same _ => exact goes_same same
  | found _ | awaited | seen _ | unseen | unattached | opened _ | unopened | unpublished _ =>
    exact .refl manager _ _
  | reserved id directory adds => exact goes_adds adds
  | removed _ _ => exact goes_destroySessionLocked manager _ _
  | detached | mutation _ _ | transform _ _ _ | attached _ =>
    exact goes_modify_plain manager _ (fun _ => rfl) (fun _ => rfl) fun _ => rfl
  | withdrawn =>
    refine Goes.trans ?_ (goes_same (sameSessions_releasePath _ _ _))
    split
    · exact goes_register_none manager _
    · exact .refl manager _ _
  | published _ =>
    refine Goes.trans ?_ (goes_same (sameSessions_mapShared _ _ _))
    exact goes_modify manager _ (fun _ => rfl) (fun _ => .inr rfl) .inl (fun before => before) fun _ => rfl
  | completed | destroyedInfo =>
    exact goes_modify manager _ (fun _ => rfl) .inl (fun _ => .inr rfl) (fun _ => rfl)
      fun _ => Bool.and_false _
  | @destroyedCore object reply =>
    refine goes_modify manager object (fun _ => rfl) nofun .inl (fun before => before) fun _ => ?_
    rw [relies.completed object reply rfl]
    rfl
  | @released kind id object =>
    rw [Manager.finishOperation]
    split
    · exact .refl manager _ _
    · cases kind with
      | transform => exact goes_modify_plain manager _ (fun _ => rfl) (fun _ => rfl) fun _ => rfl
      | mutation => exact goes_modify_plain manager _ (fun _ => rfl) (fun _ => rfl) fun _ => rfl

/-- Sessions are registered and removed under `mutex_`. -/
lemma sessions_advance (unlocked : outerOfTask task ≠ some .mutex)
    (ran : advance manager task outcome = some (next, moved)) : next.sessions = manager.sessions := by
  cases advances ran with
  | ended _ _ | found _ | reserved _ _ _ | removed _ _ | detached | mutation _ _ | transform _ _ _
  | attached _ | unattached | withdrawn | published _ | unpublished _ | released => exact absurd rfl unlocked
  | _ => rfl

/-- A call goes on with the object that it has made, or makes a new one. -/
structure Passes (manager next : Manager) (task moved : Task) : Prop where
  relies : TaskRelies next moved
  initializes : ∀ object, Locking.initializes moved = some object →
    Locking.initializes task = some object ∨ object = manager.objects ∧ manager.objects < next.objects

lemma passes_plain (uncreated : Locking.creates moved = none) (uninitialized : Locking.initializes moved = none)
    (undestroyed : Locking.destroys moved = none) : Passes manager next task moved where
  relies := taskRelies_plain uncreated uninitialized undestroyed
  initializes object own := by cases uninitialized.symm.trans own

lemma passes_adds {info : SessionInfo} (adds : Adds manager next info) (closed : info.hasSession = false)
    (incomplete : info.initializationComplete = false) (shared : Option Path) :
    Passes manager next task (.openCore shared info.sessionId manager.objects) := by
  refine ⟨⟨?_, ?_, nofun, nofun⟩, ?_⟩
  · rintro _ _ ⟨⟩
    rw [adds.infos, Function.update_self, adds.objects]
    exact ⟨Nat.lt_succ_self _, rfl, closed, fun _ => incomplete⟩
  · rintro _ ⟨⟩
    rw [adds.objects]
    exact Nat.lt_succ_self _
  · rintro _ ⟨⟩
    rw [adds.objects]
    exact .inr ⟨rfl, Nat.lt_succ_self _⟩

lemma passes_destroySessionLocked (registered : Registered manager) (live : manager.sessions id = some object)
    (reply : Reply) :
    Passes manager (manager.destroySessionLocked object reply).1 task (manager.destroySessionLocked object reply).2 := by
  obtain ⟨inside, -⟩ := registered id object live
  have goes : Goes manager (manager.destroySessionLocked object reply).1 none none :=
    goes_destroySessionLocked manager object reply
  refine ⟨⟨nofun, nofun, ?_, nofun⟩, nofun⟩
  rintro _ ⟨⟩
  refine ⟨lt_of_lt_of_le inside goes.objects, ?_⟩
  rw [goes.sessionId object inside, Manager.destroySessionLocked, Manager.sessions_register_self]
  exact nofun

lemma passes_advance (registered : Registered manager) (relies : TaskRelies manager task)
    (ran : advance manager task outcome = some (next, moved)) : Passes manager next task moved := by
  have goes := goes_advance relies ran
  cases advances ran with
  | ended _ _ | found _ | detached | mutation _ _ | transform _ _ _ | awaited | seen _ | unseen | attached _
  | unattached | completed | destroyedCore | released => exact passes_plain rfl rfl rfl
  | reserved id directory adds => exact passes_adds adds rfl rfl _
  | removed live _ => exact passes_destroySessionLocked registered live _
  | opened _ | unopened => exact ⟨⟨relies.creates, relies.initializes, nofun, nofun⟩, fun _ own => .inl own⟩
  | withdrawn | published _ | unpublished _ =>
    have inside := relies.initializes _ rfl
    exact ⟨taskRelies_completeInitialization _ (lt_of_lt_of_le inside goes.objects), fun _ own => .inl own⟩
  | destroyedInfo =>
    obtain ⟨inside, gone⟩ := relies.destroys _ rfl
    refine ⟨⟨nofun, nofun, ?_, ?_⟩, nofun⟩
    · rintro _ ⟨⟩
      rw [goes.sessionId _ inside]
      exact ⟨inside, gone⟩
    · rintro _ _ ⟨⟩
      rw [Manager.infos_modify_self]

end Tasks

section Places
variable {data after : Data} {place successor : Place} {choice : Choice}

def Place.part : Place → Part
  | .outside part | .inside part | .wanting part | .within part => part

/-- The call of the manager that a part belongs to. -/
def Part.managed : Part → Option Task
  | .manage task | .cleanup task => some task
  | .callbacks object _ (.sessionDestroyed reply) => some (.destroyCore object reply)
  | _ => none

/-- The session whose core lock may be held while `mutex_` is taken. -/
def Part.settled : Part → Option Nat
  | .eraseViewport _ object _ | .hold object | .progress object _ | .progressTo object _
  | .callbacks object _ .hold => some object
  | _ => none

def Place.settled : Place → Option Nat
  | .inside (.openViewport _ object _ _) => some object
  | place => place.part.settled

/-- The session that a part is about to lock. -/
def Place.uses (place : Place) : Option Nat :=
  match place.part with
  | .openViewport _ object _ _ | .lockCore object _ => some object
  | _ => none

/-- The session that is being published. -/
def Place.publishes : Place → Option (SessionId × Nat)
  | .wanting (.manage (.publish _ id object _)) | .within (.manage (.publish _ id object _)) => some (id, object)
  | _ => none

def Place.initializes (place : Place) : Option Nat := place.part.managed.bind Locking.initializes

structure Relies (data : Data) (place : Place) : Prop where
  managed : ∀ task, place.part.managed = some task → TaskRelies data.manager task
  publishes : ∀ id object, place.publishes = some (id, object) → data.manager.sessions id = some object
  settled : ∀ object, place.settled = some object →
    object < data.manager.objects ∧ opening data.manager object = false
  uses : ∀ object, place.uses = some object → object < data.manager.objects

/-- A place at which nothing is relied on. -/
structure Plain (place : Place) : Prop where
  managed : place.part.managed = none
  publishes : place.publishes = none
  settled : place.settled = none
  uses : place.uses = none

lemma Plain.relies (plain : Plain place) : Relies data place where
  managed task own := by cases plain.managed.symm.trans own
  publishes id object own := by cases plain.publishes.symm.trans own
  settled object own := by cases plain.settled.symm.trans own
  uses object own := by cases plain.uses.symm.trans own

structure Moves (data : Data) (place : Place) (after : Data) (successor : Place) : Prop where
  goes : Goes data.manager after.manager (place.part.managed.bind opens) (place.part.managed.bind completes)
  sessions : Lock.mutex ∉ place.holds → after.manager.sessions = data.manager.sessions
  relies : Relies after successor
  initializes : ∀ object, successor.initializes = some object → place.initializes = some object ∨
    object = data.manager.objects ∧ data.manager.objects < after.manager.objects

lemma moves_keep (same : after.manager = data.manager) (relies : Relies after successor)
    (task : successor.part.managed = place.part.managed ∨ successor.initializes = none) :
    Moves data place after successor where
  goes := by
    rw [same]
    exact .refl _ _ _
  sessions _ := by rw [same]
  relies := relies
  initializes object own := by
    rcases task with task | none
    · left
      rwa [Place.initializes, ← task]
    · cases none.symm.trans own

lemma Plain.moves (plain : Plain successor) (same : after.manager = data.manager) :
    Moves data place after successor :=
  moves_keep same plain.relies (.inr (by rw [Place.initializes, plain.managed, Option.bind_none]))

/-- A call gives up locks in its body, and takes none; when it relies on what it should, it moves on. -/
structure Proceeds (data : Data) (place : Place) (after : Data) (successor : Place) : Prop where
  holds : successor.holds ⊆ place.holds
  moves : Registered data.manager → Relies data place → place.waits = none → Moves data place after successor

lemma Plain.proceeds (plain : Plain successor) (holds : successor.holds ⊆ place.holds)
    (same : after.manager = data.manager) : Proceeds data place after successor :=
  ⟨holds, fun _ _ _ => plain.moves same⟩

lemma proceeds_finished (same : after.manager = data.manager) : Proceeds data place after (.outside .finished) :=
  Plain.proceeds ⟨rfl, rfl, rfl, rfl⟩ (List.nil_subset _) same

/-- The part that follows a critical section. -/
structure Follows (moved : Task) (successor : Place) : Prop where
  managed : successor.part.managed = some moved
  publishes : successor.publishes = none
  settled : successor.settled = none
  uses : successor.uses = none
  holds : successor.holds = []

lemma proceeds_run (own : place.part.managed = some task)
    (locked : place.waits = none → outerOfTask task = some .mutex → Lock.mutex ∈ place.holds)
    {successorOf : Task → Place} (follows : ∀ moved, Follows moved (successorOf moved))
    (ran : data.run task outcome successorOf = some (after, successor)) : Proceeds data place after successor := by
  rw [Data.run] at ran
  split at ran
  · cases ran
  · rename_i manager moved advanced
    cases ran
    have follows := follows moved
    constructor
    · rw [follows.holds]
      exact List.nil_subset _
    intro registered relies free
    have taskRelies := relies.managed task own
    have passes := passes_advance registered taskRelies advanced
    refine ⟨?_, ?_, ⟨?_, ?_, ?_, ?_⟩, ?_⟩
    · rw [own]
      exact goes_advance taskRelies advanced
    · intro unheld
      refine sessions_advance (fun needed => unheld (locked free needed)) advanced
    · intro successorTask ownSuccessor
      cases follows.managed.symm.trans ownSuccessor
      exact passes.relies
    · intro id object ownSuccessor
      cases follows.publishes.symm.trans ownSuccessor
    · intro object ownSuccessor
      cases follows.settled.symm.trans ownSuccessor
    · intro object ownSuccessor
      cases follows.uses.symm.trans ownSuccessor
    · intro object ownSuccessor
      rw [Place.initializes, follows.managed, Option.bind_some] at ownSuccessor
      rw [Place.initializes, own, Option.bind_some]
      exact passes.initializes object ownSuccessor

lemma proceeds_found (live : data.manager.sessions id = some object) (same : after.manager = data.manager)
    {part : Part} (plain : part.managed = none ∧ part.settled = none)
    (uses : ∀ used, (Place.outside part).uses = some used → used = object) :
    Proceeds data place after (.outside part) := by
  obtain ⟨managed, settled⟩ := plain
  refine ⟨List.nil_subset _, fun registered _ _ => moves_keep same ⟨?_, nofun, ?_, ?_⟩ (.inr ?_)⟩
  · intro task own
    cases managed.symm.trans own
  · intro _ own
    cases settled.symm.trans own
  · intro used own
    rw [same, uses used own]
    exact (registered id object live).1
  · exact Option.bind_eq_none_iff.mpr fun task own => by cases managed.symm.trans own

lemma proceeds_find {call : Call} (ran : data.find call choice = some (after, successor)) :
    Proceeds data (.inside (.find call)) after successor := by
  cases call with
  | manage _ => cases ran
  | createViewport id desiredId =>
    rw [Data.find] at ran
    split at ran
    · cases ran
      exact proceeds_finished rfl
    · rename_i object live
      simp only at ran
      split at ran
      · cases ran
        exact proceeds_finished rfl
      · cases ran
        refine proceeds_found live ?_ ?_ ?_
        · rfl
        · exact ⟨rfl, rfl⟩
        · rintro _ ⟨⟩
          rfl
  | destroyViewport id viewportId | changeViewport id viewportId subscribes
  | lockViewport id viewportId =>
    rw [Data.find] at ran
    split at ran
    · cases ran
      exact proceeds_finished rfl
    · rename_i object live
      split at ran
      · cases ran
        exact proceeds_finished rfl
      · cases ran
        refine proceeds_found live ?_ ?_ ?_
        · rfl
        · exact ⟨rfl, rfl⟩
        · rintro _ ⟨⟩ <;> rfl
  | lockSession id | changeSession id subscribes =>
    rw [Data.find] at ran
    split at ran
    · cases ran
      exact proceeds_finished rfl
    · rename_i object live
      cases ran
      refine proceeds_found live rfl ⟨rfl, rfl⟩ ?_
      rintro _ ⟨⟩ <;> rfl

lemma follows_manage (moved : Task) : Follows moved (.outside (.manage moved)) := ⟨rfl, rfl, rfl, rfl, rfl⟩

lemma follows_cleanup (moved : Task) : Follows moved (.outside (.cleanup moved)) := ⟨rfl, rfl, rfl, rfl, rfl⟩

lemma mem_holds_inside (part : Part) {lock : Lock} (outer : part.outer = some lock) :
    lock ∈ (Place.inside part).holds := by
  rw [Place.holds, outer]
  exact List.mem_singleton_self lock

lemma proceeds_manage (ran : data.manage task choice = some (after, successor)) :
    Proceeds data (.inside (.manage task)) after successor := by
  have locked : (Place.inside (.manage task)).waits = none → outerOfTask task = some .mutex →
      Lock.mutex ∈ (Place.inside (.manage task)).holds := fun _ => mem_holds_inside (.manage task)
  cases task with
  | awaitInitialization path object =>
    rw [Data.manage] at ran
    split at ran
    · exact proceeds_run rfl locked follows_manage ran
    · cases ran
      exact Plain.proceeds ⟨rfl, rfl, rfl, rfl⟩ (List.nil_subset _) rfl
  | publish shared id object directory =>
    rw [Data.manage] at ran
    split at ran
    · rename_i live
      cases ran
      refine ⟨List.Subset.refl _, fun _ relies _ => moves_keep rfl ⟨relies.managed, ?_, nofun, nofun⟩ (.inl rfl)⟩
      rintro _ _ ⟨⟩
      exact live
    · exact proceeds_run rfl locked follows_cleanup ran
  | removeReserved shared id object =>
    rw [Data.manage] at ran
    exact proceeds_run rfl locked follows_cleanup ran
  | destroyCore object reply =>
    cases ran
    exact ⟨List.Subset.refl _, fun _ relies _ => moves_keep rfl ⟨relies.managed, nofun, nofun, nofun⟩ (.inl rfl)⟩
  | _ =>
    simp only [Data.manage] at ran
    exact proceeds_run rfl locked follows_manage ran

lemma manager_closeViewports (data : Data) (object : Nat) :
    (data.closeViewports object).manager = data.manager := by
  have all : ∀ (entries : List (ViewportId × Nat)) (start : Data),
      (entries.foldl (fun closed entry => closed.setOpened entry.2 false) start).manager = start.manager := by
    intro entries
    induction entries with
    | nil => exact fun _ => rfl
    | cons entry rest ih => exact fun start => ih (start.setOpened entry.2 false)
  exact all _ data

lemma proceeds_settled (holds : successor.holds ⊆ place.holds) (settled : successor.settled = place.settled)
    (managed : successor.part.managed = none) (publishes : successor.publishes = none)
    (uses : successor.uses = none) : Proceeds data place data successor := by
  refine ⟨holds, fun _ relies _ => moves_keep rfl ⟨?_, ?_, settled ▸ relies.settled, ?_⟩ (.inr ?_)⟩
  · intro task own
    cases managed.symm.trans own
  · intro id object own
    cases publishes.symm.trans own
  · intro object own
    cases uses.symm.trans own
  · rw [Place.initializes, managed, Option.bind_none]

lemma proceeds_finishCore {ending : After} (ran : data.finishCore object choice ending = some (after, successor)) :
    Proceeds data (.inside (.callbacks object [] ending)) after successor := by
  cases ending with
  | hold =>
    cases ran
    exact proceeds_settled (List.Subset.refl _) rfl rfl rfl rfl
  | viewportOpened viewport | viewportClosed viewport =>
    cases ran
    exact proceeds_finished rfl
  | sessionDestroyed reply =>
    have same := manager_closeViewports data object
    rw [Data.finishCore] at ran
    have proceeds : Proceeds (data.closeViewports object) (.inside (.callbacks object [] (.sessionDestroyed reply)))
        after successor := proceeds_run rfl nofun follows_cleanup ran
    refine ⟨proceeds.holds, fun registered relies free => ?_⟩
    have reliesClosed : Relies (data.closeViewports object)
        (.inside (.callbacks object [] (.sessionDestroyed reply))) := by
      refine ⟨?_, nofun, nofun, nofun⟩
      rw [same]
      exact relies.managed
    have moves := proceeds.moves (by rwa [same]) reliesClosed free
    have goes := moves.goes
    have sessions := moves.sessions
    have initializes := moves.initializes
    rw [same] at goes sessions initializes
    exact ⟨goes, sessions, moves.relies, initializes⟩

lemma proceeds_body (ran : body data place choice = some (after, successor)) :
    Proceeds data place after successor := by
  cases place with
  | outside part =>
    cases part with
    | manage task =>
      simp only [body] at ran
      refine proceeds_run rfl (fun free needed => ?_) follows_manage ran
      cases free.symm.trans needed
    | awaitComplete path object =>
      simp only [body] at ran
      split at ran
      · cases ran
        refine ⟨List.nil_subset _, fun _ _ _ => moves_keep rfl ⟨?_, nofun, nofun, nofun⟩ (.inr rfl)⟩
        rintro _ ⟨⟩
        exact taskRelies_plain rfl rfl rfl
      · cases ran
    | _ => cases ran
  | inside part =>
    cases part with
    | manage task => exact proceeds_manage ran
    | cleanup task =>
      cases ran
      exact ⟨List.nil_subset _, fun _ relies _ => moves_keep rfl ⟨relies.managed, nofun, nofun, nofun⟩ (.inl rfl)⟩
    | find call => exact proceeds_find ran
    | openViewport id object viewportId viewport =>
      simp only [body] at ran
      split at ran
      · cases ran
        exact Plain.proceeds ⟨rfl, rfl, rfl, rfl⟩ (List.Subset.refl _) rfl
      · cases ran
        exact proceeds_settled (List.Subset.refl _) rfl rfl rfl rfl
    | closeViewport object viewport =>
      cases ran
      exact Plain.proceeds ⟨rfl, rfl, rfl, rfl⟩ (List.Subset.refl _) rfl
    | callbacks object remaining ending =>
      cases remaining with
      | nil => exact proceeds_finishCore ran
      | cons callback rest =>
        cases ran
        exact ⟨List.Subset.refl _, fun _ relies _ =>
          moves_keep rfl ⟨relies.managed, nofun, relies.settled, nofun⟩ (.inl rfl)⟩
    | lockCore object viewport =>
      simp only [body] at ran
      split at ran
      · rename_i opened
        cases ran
        refine ⟨List.Subset.refl _, fun _ relies _ => moves_keep rfl ⟨nofun, nofun, ?_, nofun⟩ (.inr rfl)⟩
        rintro _ ⟨⟩
        refine ⟨relies.uses object rfl, ?_⟩
        have present := (Bool.and_eq_true_iff.mp opened).1
        rw [Data.hasSession] at present
        rw [opening, present]
        rfl
      · cases ran
        exact proceeds_finished rfl
    | hold object =>
      simp only [body] at ran
      split at ran
      · cases ran
        exact proceeds_settled (List.Subset.refl _) rfl rfl rfl rfl
      · cases ran
        exact proceeds_settled (List.Subset.refl _) rfl rfl rfl rfl
      · cases ran
        exact proceeds_finished rfl
    | changeList object subscribes =>
      cases ran
      exact Plain.proceeds ⟨rfl, rfl, rfl, rfl⟩ (List.nil_subset _) rfl
    | storeInterest object subscribes =>
      simp only [body] at ran
      split at ran
      · cases ran
        exact Plain.proceeds ⟨rfl, rfl, rfl, rfl⟩ (List.nil_subset _) rfl
      · cases ran
        exact proceeds_finished rfl
    | withdraw object =>
      cases ran
      exact proceeds_finished rfl
    | changeViewport object viewport subscribes =>
      simp only [body] at ran
      split at ran
      · cases ran
        exact proceeds_finished rfl
      · cases ran
        exact Plain.proceeds ⟨rfl, rfl, rfl, rfl⟩ (List.Subset.refl _) rfl
    | _ => cases ran
  | wanting part => cases ran
  | within part =>
    cases part with
    | manage task =>
      simp only [body] at ran
      refine proceeds_run rfl (fun _ needed => ?_) follows_manage ran
      rw [Place.holds, Part.outer, needed]
      exact List.mem_append_right _ (List.mem_singleton_self _)
    | eraseViewport id object viewportId =>
      simp only [body] at ran
      split at ran
      · cases ran
        exact proceeds_finished rfl
      · cases ran
        exact proceeds_finished rfl
    | closeViewport object viewport =>
      cases ran
      exact Plain.proceeds ⟨rfl, rfl, rfl, rfl⟩ (List.subset_cons_self _ _) rfl
    | callbacks object remaining ending =>
      cases remaining with
      | nil => cases ran
      | cons callback rest =>
        have managed : Part.managed (.callbacks object rest ending) =
            Part.managed (.callbacks object (callback :: rest) ending) := by cases ending <;> rfl
        have settled : Part.settled (.callbacks object rest ending) =
            Part.settled (.callbacks object (callback :: rest) ending) := by cases ending <;> rfl
        cases ran
        refine ⟨List.subset_cons_self _ _, fun _ relies _ =>
          moves_keep rfl ⟨?_, by rintro _ _ ⟨⟩, ?_, by rintro _ ⟨⟩⟩ (.inl managed)⟩
        · exact managed ▸ relies.managed
        · intro owner own
          exact relies.settled owner (settled.symm.trans own)
    | progress object id =>
      simp only [body] at ran
      split at ran
      · cases ran
        exact proceeds_settled (List.subset_cons_self _ _) rfl rfl rfl rfl
      · cases ran
        exact proceeds_settled (List.subset_cons_self _ _) rfl rfl rfl rfl
    | progressTo object target =>
      cases ran
      exact proceeds_settled (List.subset_cons_self _ _) rfl rfl rfl rfl
    | changeViewport object viewport subscribes =>
      cases ran
      exact proceeds_finished rfl
    | _ => cases ran

def discipline : Locks.Discipline Data Place Choice Lock where
  holds := Place.holds
  waits := Place.waits
  acquired := Place.acquired
  body := body
  holds_acquired _ _ waiting := holds_acquired waiting
  holds_body _ _ _ _ _ _ ran := (proceeds_body ran).holds

end Places

end OmegaEdit.Server.Locking
