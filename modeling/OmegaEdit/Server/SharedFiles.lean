import OmegaEdit.Server.Manager

/-! Shared file sessions are created by path, without a chosen id. Each call is seen here by the
ids that it has got, reserved or detached, and the two maps of the manager by how they agree:
a path leads to the live session that has it, and ids are not used twice. -/
namespace OmegaEdit.Server
open Threads
variable {manager : Manager} {task : Task} {id : SessionId} {object : Nat} {path : Path}
  {system : System Manager Task} {index : Nat}

/-- Only shared file sessions are created, and none is destroyed but by its last detachment. -/
def SharesFiles (_ : System Manager Task) : Event Call Outcome → Prop
  | .spawn (.createSession request) => request.desiredId = none ∧ request.path.isSome
  | .spawn (.detachSession _) => True
  | .spawn _ => False
  | .advance _ _ => True

section Views

def Task.reply : Task → Option Reply
  | .completeInitialization _ reply | .destroyInfo _ reply | .destroyCore _ reply | .finished reply => some reply
  | _ => none

/-- The id that a creation has got, if it has succeeded. -/
def Task.created (task : Task) : Option SessionId :=
  match task.reply with
  | some (.created id) => some id
  | _ => none

/-- The id that a detachment has been made for. -/
def Task.detaches (task : Task) : Option SessionId :=
  match task.reply with
  | some (.detached id _) => some id
  | _ => none

/-- The path, id and object of a session that is reserved and not yet published. -/
def Task.reserving : Task → Option (Option Path × SessionId × Nat)
  | .openCore shared id object | .removeReserved shared id object | .publish shared id object _ =>
    some (shared, id, object)
  | _ => none

def Task.reserves (task : Task) : Option SessionId := task.reserving.map fun reserved => reserved.2.1

/-- The path and object of a session that a creation is attaching to. -/
def Task.attaching : Task → Option (Path × Nat)
  | .awaitInitialization path object | .checkCore path object | .attach path object => some (path, object)
  | _ => none

/-- The object that a creation has seen with a core session. -/
def Task.opened : Task → Option Nat
  | .attach _ object => some object
  | _ => none

/-- The object that a call is destroying. -/
def Task.destroying : Task → Option Nat
  | .destroyInfo object _ | .destroyCore object _ => some object
  | _ => none

/-- The call is one about shared file sessions. -/
def Task.sharesFiles : Task → Bool
  | .begin (.createSession request) => request.desiredId.isNone && request.path.isSome
  | .begin (.destroySession _) | .begin (.tryBegin _ _) | .guarded _ _ _ => false
  | _ => true

/-- The number of calls with an id in some respect. -/
def count (view : Task → Option SessionId) (id : SessionId) (tasks : List Task) : Nat :=
  tasks.countP fun task => view task = some id

lemma count_set (view : Task → Option SessionId) (found : system.tasks[index]? = some task) (moved : Task)
    (id : SessionId) :
    count view id (system.tasks.set index moved) = count view id system.tasks -
      (if view task = some id then 1 else 0) + if view moved = some id then 1 else 0 := by
  obtain ⟨inside, same⟩ := List.getElem?_eq_some_iff.mp found
  rw [count, List.countP_set inside, same, count]
  simp only [decide_eq_true_eq]

lemma count_set_same (view : Task → Option SessionId) (found : system.tasks[index]? = some task) (moved : Task)
    (same : view moved = view task) (id : SessionId) :
    count view id (system.tasks.set index moved) = count view id system.tasks := by
  rw [count_set view found, same]
  split
  · rename_i counted
    have positive : 0 < count view id system.tasks :=
      List.countP_pos_iff.mpr ⟨task, List.mem_of_getElem? found, decide_eq_true counted⟩
    omega
  · rfl

/-- The call has to do with no other id. -/
structure Task.Concerns (task : Task) (id : SessionId) : Prop where
  created : ∀ own, task.created = some own → own = id
  reserves : ∀ own, task.reserves = some own → own = id
  detaches : ∀ own, task.detaches = some own → own = id

/-- A call leaves what it counted for before, and counts for what it has come to. -/
lemma count_set_own (view : Task → Option SessionId) (found : system.tasks[index]? = some task) {moved : Task}
    (before : ∀ own, view task = some own → own = id) (after : ∀ own, view moved = some own → own = id) :
    count view id (system.tasks.set index moved) + (view task).isSome.toNat =
      count view id system.tasks + (view moved).isSome.toNat := by
  have counts : ∀ {viewed : Option SessionId}, (∀ own, viewed = some own → own = id) →
      (if viewed = some id then 1 else 0) = viewed.isSome.toNat := by
    intro viewed only
    cases viewed with
    | none => rfl
    | some own => simp [only own rfl]
  rw [count_set view found, counts before, counts after]
  cases viewed : view task with
  | none => rfl
  | some own =>
    have positive : 0 < count view id system.tasks :=
      List.countP_pos_iff.mpr ⟨task, List.mem_of_getElem? found, decide_eq_true (before own viewed ▸ viewed)⟩
    simp only [Option.isSome_some, Bool.toNat_true]
    omega

lemma count_set_other (view : Task → Option SessionId) (found : system.tasks[index]? = some task) {moved : Task}
    (before : ∀ own, view task = some own → own = id) (after : ∀ own, view moved = some own → own = id)
    {other : SessionId} (apart : other ≠ id) :
    count view other (system.tasks.set index moved) = count view other system.tasks := by
  rw [count_set view found, if_neg fun viewed => apart (before other viewed),
    if_neg fun viewed => apart (after other viewed)]
  rfl

end Views

section Maps

/-- The two maps agree: live sessions are the ones that their paths lead to, and ids are not used twice. -/
structure Maps (manager : Manager) : Prop where
  registered : ∀ id object, manager.sessions id = some object →
    object < manager.objects ∧ (manager.infos object).sessionId = id ∧
      ∃ path, (manager.infos object).canonicalFilePath = some path ∧
        manager.fileSessionsByPath path = some id
  mapped : ∀ path id, manager.fileSessionsByPath path = some id →
    ∃ object, manager.sessions id = some object ∧ (manager.infos object).canonicalFilePath = some path
  issued : ∀ object < manager.objects, (manager.infos object).sessionId ≤ manager.generated
  distinct : ∀ object < manager.objects, ∀ other < manager.objects,
    (manager.infos object).sessionId = (manager.infos other).sessionId → object = other

/-- A change of one session that keeps its id and path. -/
structure Retains (change : SessionInfo → SessionInfo) : Prop where
  sessionId : ∀ info, (change info).sessionId = info.sessionId
  canonicalFilePath : ∀ info, (change info).canonicalFilePath = info.canonicalFilePath

variable {change : SessionInfo → SessionInfo}

lemma Retains.infos (retains : Retains change) (manager : Manager) (object other : Nat) :
    ((manager.modify object change).infos other).sessionId = (manager.infos other).sessionId ∧
      ((manager.modify object change).infos other).canonicalFilePath =
        (manager.infos other).canonicalFilePath :=
  ⟨manager.modify_keeps _ retains.sessionId object other,
    manager.modify_keeps _ retains.canonicalFilePath object other⟩

lemma Maps.modify (maps : Maps manager) (retains : Retains change) (object : Nat) :
    Maps (manager.modify object change) where
  registered id object live := by
    rw [(retains.infos _ _ _).1, (retains.infos _ _ _).2]
    exact maps.registered id object live
  mapped path id leads := by
    obtain ⟨object, live, same⟩ := maps.mapped path id leads
    exact ⟨object, live, by rw [(retains.infos _ _ _).2, same]⟩
  issued object inside := by
    rw [(retains.infos _ _ _).1]
    exact maps.issued object inside
  distinct object inside other insideOther := by
    rw [(retains.infos _ _ _).1, (retains.infos _ _ _).1]
    exact maps.distinct object inside other insideOther

lemma Maps.id_of_path (maps : Maps manager) {other : SessionId} {otherObject : Nat}
    (live : manager.sessions id = some object) (liveOther : manager.sessions other = some otherObject)
    (same : (manager.infos object).canonicalFilePath = (manager.infos otherObject).canonicalFilePath) :
    id = other := by
  obtain ⟨-, -, path, own, leads⟩ := maps.registered id object live
  obtain ⟨-, -, otherPath, ownOther, leadsOther⟩ := maps.registered other otherObject liveOther
  rw [own, ownOther] at same
  cases same
  rw [leads] at leadsOther
  exact Option.some.inj leadsOther

/-- An object that is not live under its id is not live at all, and then nothing is under that id. -/
lemma Maps.sessions_of_ne (maps : Maps manager) (inside : object < manager.objects)
    (named : (manager.infos object).sessionId = id) (gone : manager.sessions id ≠ some object) :
    manager.sessions id = none := by
  cases live : manager.sessions id with
  | none => rfl
  | some current =>
    obtain ⟨insideCurrent, namedCurrent, -⟩ := maps.registered id current live
    rw [maps.distinct current insideCurrent object inside (namedCurrent.trans named.symm)] at live
    exact absurd live gone

lemma Maps.remove (maps : Maps manager) (live : manager.sessions id = some object)
    (own : (manager.infos object).canonicalFilePath = some path) :
    Maps ((manager.mapPath path none).register id none) := by
  refine ⟨?_, ?_, maps.issued, maps.distinct⟩
  · intro other otherObject liveOther
    have apart : other ≠ id := by
      rintro rfl
      rw [Manager.sessions_register_self] at liveOther
      cases liveOther
    rw [Manager.sessions_register_of_ne apart] at liveOther
    obtain ⟨insideOther, namedOther, otherPath, ownOther, leadsOther⟩ :=
      maps.registered other otherObject liveOther
    refine ⟨insideOther, namedOther, otherPath, ownOther, ?_⟩
    refine (Manager.fileSessionsByPath_mapPath_of_ne ?_).trans leadsOther
    rintro rfl
    exact apart (maps.id_of_path liveOther live (ownOther.trans own.symm))
  · intro otherPath other leadsOther
    have apartPath : otherPath ≠ path := by
      rintro rfl
      cases Manager.fileSessionsByPath_mapPath_self.symm.trans leadsOther
    have before : manager.fileSessionsByPath otherPath = some other :=
      (Manager.fileSessionsByPath_mapPath_of_ne apartPath).symm.trans leadsOther
    obtain ⟨otherObject, liveOther, ownOther⟩ := maps.mapped otherPath other before
    have apart : other ≠ id := by
      rintro rfl
      rw [live] at liveOther
      cases liveOther
      rw [own] at ownOther
      exact apartPath (Option.some.inj ownOther).symm
    exact ⟨otherObject, (Manager.sessions_register_of_ne apart).trans liveOther, ownOther⟩

/-- The manager after a reservation for a path. -/
def Manager.reserved (manager : Manager) (path : Path) (id : SessionId) (directory : String) : Manager :=
  { manager with
    sessions := Function.update manager.sessions id (some manager.objects)
    fileSessionsByPath := Function.update manager.fileSessionsByPath path (some id)
    infos := Function.update manager.infos manager.objects
      ⟨id, some path, directory, 1, false, false, false, 0⟩
    objects := manager.objects + 1
    generated := id }

section Reserved
variable {directory : String}

@[simp] lemma sessions_reserved_self : (manager.reserved path id directory).sessions id = some manager.objects := by
  simp only [Manager.reserved, Function.update_self]

@[simp] lemma sessions_reserved_of_ne {other : SessionId} (apart : other ≠ id) :
    (manager.reserved path id directory).sessions other = manager.sessions other := by
  simp only [Manager.reserved, Function.update_of_ne apart]

@[simp] lemma infos_reserved_self :
    (manager.reserved path id directory).infos manager.objects =
      ⟨id, some path, directory, 1, false, false, false, 0⟩ := by
  simp only [Manager.reserved, Function.update_self]

@[simp] lemma infos_reserved_of_lt (inside : object < manager.objects) :
    (manager.reserved path id directory).infos object = manager.infos object := by
  simp only [Manager.reserved, Function.update_of_ne (ne_of_lt inside)]

lemma Maps.reserved (maps : Maps manager) (fresh : manager.generated < id) (unmapped : manager.fileSessionsByPath path = none) :
    Maps (manager.reserved path id directory) := by
  have unused : ∀ other < manager.objects, (manager.infos other).sessionId ≠ id := by
    intro other inside
    exact ne_of_lt (lt_of_le_of_lt (maps.issued other inside) fresh)
  have bound : ∀ other < (manager.reserved path id directory).objects,
      other = manager.objects ∨ other < manager.objects := by
    intro other inside
    exact (Nat.eq_or_lt_of_le (Nat.le_of_lt_succ inside))
  refine ⟨?_, ?_, ?_, ?_⟩
  · intro other otherObject live
    rcases eq_or_ne other id with rfl | apart
    · cases sessions_reserved_self.symm.trans live
      rw [infos_reserved_self]
      exact ⟨Nat.lt_succ_self _, rfl, path, rfl, Function.update_self _ _ _⟩
    · rw [sessions_reserved_of_ne apart] at live
      obtain ⟨inside, named, route, own, leads⟩ := maps.registered other otherObject live
      rw [infos_reserved_of_lt inside]
      refine ⟨Nat.lt_succ_of_lt inside, named, route, own, ?_⟩
      refine (Function.update_of_ne ?_ _ _).trans leads
      rintro rfl
      rw [unmapped] at leads
      cases leads
  · intro route other leads
    rcases eq_or_ne route path with rfl | apart
    · cases (Function.update_self _ _ _).symm.trans leads
      exact ⟨manager.objects, sessions_reserved_self, by rw [infos_reserved_self]⟩
    · obtain ⟨otherObject, live, own⟩ :=
        maps.mapped route other ((Function.update_of_ne apart _ _).symm.trans leads)
      obtain ⟨inside, named, -⟩ := maps.registered other otherObject live
      refine ⟨otherObject, ?_, by rw [infos_reserved_of_lt inside, own]⟩
      rw [sessions_reserved_of_ne]
      · exact live
      · rintro rfl
        exact unused otherObject inside named
  · intro other inside
    rcases bound other inside with rfl | old
    · rw [infos_reserved_self]
      exact le_refl id
    · rw [infos_reserved_of_lt old]
      exact le_of_lt (lt_of_le_of_lt (maps.issued other old) fresh)
  · intro first insideFirst second insideSecond same
    rcases bound first insideFirst with rfl | oldFirst
    · rcases bound second insideSecond with rfl | oldSecond
      · rfl
      · rw [infos_reserved_self, infos_reserved_of_lt oldSecond] at same
        exact absurd same.symm (unused second oldSecond)
    · rcases bound second insideSecond with rfl | oldSecond
      · rw [infos_reserved_self, infos_reserved_of_lt oldFirst] at same
        exact absurd same (unused first oldFirst)
      · rw [infos_reserved_of_lt oldFirst, infos_reserved_of_lt oldSecond] at same
        exact maps.distinct first oldFirst second oldSecond same

end Reserved

end Maps

end OmegaEdit.Server
