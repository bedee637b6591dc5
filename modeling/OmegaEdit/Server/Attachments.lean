import OmegaEdit.Server.SharedFiles

/-! The attachments of shared file sessions. The first creation of a path reserves a session and
later publishes it, others attach to it, and the last one to detach destroys it; all these steps
are taken by different calls in any order. A live session counts its creations and the one that
still reserves it, less the detachments. -/
namespace OmegaEdit.Server
open Threads
variable {change : SessionInfo → SessionInfo} {shared : Option Path} {directory : String}
  {call : Call} {request : CreateRequest}
variable {manager next : Manager} {task moved other : Task} {outcome : Outcome} {id : SessionId}
  {object : Nat} {path : Path} {system : System Manager Task} {index : Nat}

section Invariant

structure Relies (manager : Manager) (task : Task) : Prop where
  sharesFiles : task.sharesFiles = true
  attaching : ∀ path object, task.attaching = some (path, object) →
    object < manager.objects ∧ (manager.infos object).canonicalFilePath = some path
  reserving : ∀ shared id object, task.reserving = some (shared, id, object) →
    object < manager.objects ∧ (manager.infos object).sessionId = id ∧
      (manager.infos object).canonicalFilePath = shared ∧ (manager.infos object).hasSession = false
  created : ∀ id, task.created = some id → id ≤ manager.generated
  destroying : ∀ object, task.destroying = some object →
    object < manager.objects ∧ manager.sessions (manager.infos object).sessionId ≠ some object

/-- A session is reserved by one call, and nobody has got it or sees it open before it is published. -/
structure Awaits (task other : Task) : Prop where
  alone : ∀ id, task.reserves = some id → other.reserves ≠ some id
  first : ∀ id, task.reserves = some id → other.created ≠ some id
  closed : ∀ shared id object, task.reserving = some (shared, id, object) → other.opened ≠ some object

def Apart (task other : Task) : Prop := Awaits task other ∧ Awaits other task

lemma Apart.symm (apart : Apart task other) : Apart other task := ⟨apart.2, apart.1⟩

/-- The maps agree, and the attachments of a session are counted. -/
structure Attached (system : System Manager Task) : Prop where
  maps : Maps system.shared
  published : ∀ id object, system.shared.sessions id = some object →
    (system.shared.infos object).hasSession = true ∨ 0 < count Task.reserves id system.tasks
  live : ∀ id object, system.shared.sessions id = some object →
    count Task.created id system.tasks + count Task.reserves id system.tasks ≤
      (system.shared.infos object).attachmentCount + count Task.detaches id system.tasks
  dead : ∀ id, system.shared.sessions id = none →
    count Task.created id system.tasks ≤ count Task.detaches id system.tasks

/-- The live session of an id. -/
def Manager.live (manager : Manager) (id : SessionId) : Option SessionInfo :=
  (manager.sessions id).map manager.infos

/-- What holds of one session and the numbers of calls that have got, reserved and detached it. -/
def Account (info : Option SessionInfo) (created reserves detaches : Nat) : Prop :=
  match info with
  | none => created ≤ detaches
  | some info => (info.hasSession = true ∨ 0 < reserves) ∧
      created + reserves ≤ info.attachmentCount + detaches

def Accounted (system : System Manager Task) (id : SessionId) : Prop :=
  Account (system.shared.live id) (count Task.created id system.tasks)
    (count Task.reserves id system.tasks) (count Task.detaches id system.tasks)

lemma Attached.accounted (attached : Attached system) (id : SessionId) : Accounted system id := by
  rw [Accounted, Manager.live]
  cases live : system.shared.sessions id with
  | none => exact attached.dead id live
  | some object => exact ⟨attached.published id object live, attached.live id object live⟩

lemma attached_of_accounted (maps : Maps system.shared) (accounted : ∀ id, Accounted system id) :
    Attached system := by
  simp only [Accounted, Manager.live] at accounted
  refine ⟨maps, fun id object live => ?_, fun id object live => ?_, fun id gone => ?_⟩
  · exact (live ▸ accounted id).1
  · exact (live ▸ accounted id).2
  · have known := accounted id
    rwa [gone] at known

lemma Manager.live_modify_self (live : manager.sessions id = some object) :
    (manager.modify object change).live id = some (change (manager.infos object)) := by
  rw [Manager.live, show (manager.modify object change).sessions id = some object from live,
    Option.map_some, Manager.infos_modify_self]

lemma Maps.live_modify (maps : Maps manager) (live : manager.sessions id = some object) {other : SessionId}
    (apart : other ≠ id) : (manager.modify object change).live other = manager.live other := by
  refine Option.map_congr fun current liveOther => Manager.infos_modify_of_ne ?_
  rintro rfl
  exact apart ((maps.registered other current liveOther).2.1.symm.trans (maps.registered id current live).2.1)

/-- A call that has to do with one id moves on. -/
lemma Attached.movedOn (attached : Attached system) (found : system.tasks[index]? = some task)
    (maps : Maps next) (id : SessionId) (concerns : task.Concerns id) (concerned : moved.Concerns id)
    (others : ∀ other ≠ id, next.live other = system.shared.live other)
    (own : ∀ created reserves detaches,
      created + task.created.isSome.toNat = count Task.created id system.tasks + moved.created.isSome.toNat →
      reserves + task.reserves.isSome.toNat =
        count Task.reserves id system.tasks + moved.reserves.isSome.toNat →
      detaches + task.detaches.isSome.toNat =
        count Task.detaches id system.tasks + moved.detaches.isSome.toNat →
      Account (next.live id) created reserves detaches) : Attached ⟨next, system.tasks.set index moved⟩ := by
  refine attached_of_accounted maps fun other => ?_
  rcases eq_or_ne other id with rfl | apart
  · exact own _ _ _ (count_set_own _ found concerns.created concerned.created)
      (count_set_own _ found concerns.reserves concerned.reserves)
      (count_set_own _ found concerns.detaches concerned.detaches)
  · have before := attached.accounted other
    rw [Accounted, count_set_other _ found concerns.created concerned.created apart,
      count_set_other _ found concerns.reserves concerned.reserves apart,
      count_set_other _ found concerns.detaches concerned.detaches apart, others other apart]
    exact before

/-- The manager goes on: objects keep their ids and paths, and are not registered again. -/
structure Grows (manager next : Manager) : Prop where
  objects : manager.objects ≤ next.objects
  generated : manager.generated ≤ next.generated
  sessionId : ∀ object < manager.objects, (next.infos object).sessionId = (manager.infos object).sessionId
  canonicalFilePath : ∀ object < manager.objects,
    (next.infos object).canonicalFilePath = (manager.infos object).canonicalFilePath
  sessions : ∀ id, ∀ object < manager.objects, next.sessions id = some object →
    manager.sessions id = some object

lemma Grows.refl (manager : Manager) : Grows manager manager :=
  ⟨le_rfl, le_rfl, fun _ _ => rfl, fun _ _ => rfl, fun _ _ _ live => live⟩

lemma Grows.trans {last : Manager} (grows : Grows manager next) (further : Grows next last) :
    Grows manager last := by
  have inside {object : Nat} (old : object < manager.objects) := lt_of_lt_of_le old grows.objects
  refine ⟨le_trans grows.objects further.objects, le_trans grows.generated further.generated, ?_, ?_, ?_⟩
  · exact fun object old => (further.sessionId object (inside old)).trans (grows.sessionId object old)
  · exact fun object old =>
      (further.canonicalFilePath object (inside old)).trans (grows.canonicalFilePath object old)
  · exact fun id object old live => grows.sessions id object old (further.sessions id object (inside old) live)

/-- What a call relies on stays, unless another one opens the session that it has reserved. -/
lemma Relies.extend (relies : Relies manager task) (grows : Grows manager next)
    (closed : ∀ shared id object, task.reserving = some (shared, id, object) →
      (next.infos object).hasSession = (manager.infos object).hasSession) : Relies next task where
  sharesFiles := relies.sharesFiles
  attaching path object own := by
    obtain ⟨inside, same⟩ := relies.attaching path object own
    exact ⟨lt_of_lt_of_le inside grows.objects, by rw [grows.canonicalFilePath object inside, same]⟩
  reserving shared id object own := by
    obtain ⟨inside, named, same, unopened⟩ := relies.reserving shared id object own
    exact ⟨lt_of_lt_of_le inside grows.objects, by rw [grows.sessionId object inside, named],
      by rw [grows.canonicalFilePath object inside, same],
      by rw [closed shared id object own, unopened]⟩
  created id own := le_trans (relies.created id own) grows.generated
  destroying object own := by
    obtain ⟨inside, gone⟩ := relies.destroying object own
    refine ⟨lt_of_lt_of_le inside grows.objects, fun live => gone ?_⟩
    rw [grows.sessionId object inside] at live
    exact grows.sessions _ object inside live

/-- The views of a call by id are the same as before. -/
structure SameViews (moved task : Task) : Prop where
  created : moved.created = task.created
  reserves : moved.reserves = task.reserves
  detaches : moved.detaches = task.detaches

/-- The calls stay in order when one moves on. -/
structure Orderly (system : System Manager Task) (index : Nat) (next : Manager) (moved : Task) : Prop
    extends Keeps Attached Relies Apart system index next moved where
  grows : Grows system.shared next

def InOrder (system : System Manager Task) : Prop := Holds Attached Relies Apart system

/-- The counts stay when the views of the call do, and no session is registered, closed or attached to. -/
lemma Attached.same (attached : Attached system) (found : system.tasks[index]? = some task)
    (views : SameViews moved task) (maps : Maps next) (sessions : next.sessions = system.shared.sessions)
    (infos : ∀ id object, system.shared.sessions id = some object →
      ((system.shared.infos object).hasSession = true → (next.infos object).hasSession = true) ∧
        (system.shared.infos object).attachmentCount ≤ (next.infos object).attachmentCount) :
    Attached ⟨next, system.tasks.set index moved⟩ := by
  refine attached_of_accounted maps fun id => ?_
  rw [Accounted, Manager.live, sessions, count_set_same _ found moved views.created,
    count_set_same _ found moved views.reserves, count_set_same _ found moved views.detaches]
  cases live : system.shared.sessions id with
  | none => exact attached.dead id live
  | some object =>
    exact ⟨(attached.published id object live).imp_left (infos id object live).1,
      le_trans (attached.live id object live) (Nat.add_le_add_right (infos id object live).2 _)⟩

lemma apart_of_plain (unreserved : moved.reserving = none) (uncreated : moved.created = none)
    (unopened : moved.opened = none) : Apart moved other := by
  have none : moved.reserves = none := by rw [Task.reserves, unreserved, Option.map_none]
  refine ⟨⟨?_, ?_, ?_⟩, ⟨?_, ?_, ?_⟩⟩
  · intro id own
    rw [none] at own
    cases own
  · intro id own
    rw [none] at own
    cases own
  · intro shared id object own
    rw [unreserved] at own
    cases own
  · intro id _ own
    rw [none] at own
    cases own
  · intro id _ own
    rw [uncreated] at own
    cases own
  · intro shared id object _ own
    rw [unopened] at own
    cases own

/-- A call that has no more in hand than before is apart from the same calls. -/
lemma Apart.inherit (apart : Apart task other) (views : SameViews moved task)
    (reserving : ∀ reserved, moved.reserving = some reserved → task.reserving = some reserved)
    (opened : ∀ object, moved.opened = some object → task.opened = some object) : Apart moved other := by
  refine ⟨⟨?_, ?_, ?_⟩, ⟨?_, ?_, ?_⟩⟩
  · rw [views.reserves]
    exact apart.1.alone
  · rw [views.reserves]
    exact apart.1.first
  · intro shared id object own
    exact apart.1.closed shared id object (reserving _ own)
  · intro id others own
    rw [views.reserves] at own
    exact apart.2.alone id others own
  · intro id others own
    rw [views.created] at own
    exact apart.2.first id others own
  · intro shared id object others own
    exact apart.2.closed shared id object others (opened object own)

lemma grows_modify (retains : Retains change) (manager : Manager) (object : Nat) :
    Grows manager (manager.modify object change) :=
  ⟨le_rfl, le_rfl, fun other _ => (retains.infos manager object other).1,
    fun other _ => (retains.infos manager object other).2, fun _ _ _ live => live⟩

lemma InOrder.keep (ordered : InOrder system) (found : system.tasks[index]? = some task)
    (views : SameViews moved task)
    (reserving : ∀ reserved, moved.reserving = some reserved → task.reserving = some reserved)
    (opened : ∀ object, moved.opened = some object → task.opened = some object)
    (relies : Relies system.shared moved) : Orderly system index system.shared moved := by
  refine ⟨ordered.keeps found (ordered.whole.same found views ordered.whole.maps rfl ?_) relies ?_, .refl _⟩
  · exact fun _ _ _ => ⟨fun open_ => open_, le_rfl⟩
  · exact fun _ _ reliesOther apart => ⟨reliesOther, apart.inherit views reserving opened⟩

/-- A step that changes one session, but not its id and path, whether it is open, and its attachments. -/
lemma InOrder.modify (ordered : InOrder system) (found : system.tasks[index]? = some task)
    (views : SameViews moved task) (unreserved : moved.reserving = none)
    (unopened : moved.opened = none) (retains : Retains change)
    (hasSession : ∀ info, (change info).hasSession = info.hasSession)
    (attachmentCount : ∀ info, (change info).attachmentCount = info.attachmentCount)
    (relies : Relies (system.shared.modify object change) moved) :
    Orderly system index (system.shared.modify object change) moved := by
  have opened := system.shared.modify_keeps SessionInfo.hasSession hasSession object
  have counted := system.shared.modify_keeps SessionInfo.attachmentCount attachmentCount object
  refine ⟨ordered.keeps found (ordered.whole.same found views (ordered.whole.maps.modify retains object)
    rfl ?_) relies ?_, grows_modify retains _ object⟩
  · intro id other _
    rw [opened, counted]
    exact ⟨fun opened => opened, le_rfl⟩
  · intro other _ reliesOther apart
    refine ⟨reliesOther.extend (grows_modify retains _ object) fun _ _ reserved _ => opened reserved, ?_⟩
    refine apart.inherit views ?_ ?_
    · intro reserved own
      rw [unreserved] at own
      cases own
    · intro opened own
      rw [unopened] at own
      cases own

lemma InOrder.checkCore (ordered : InOrder system) (found : system.tasks[index]? = some (.checkCore path object))
    (opened : (system.shared.infos object).hasSession = true) :
    Orderly system index system.shared (.attach path object) := by
  have relies := ordered.each index _ found
  refine ⟨ordered.keeps found (ordered.whole.same found ⟨rfl, rfl, rfl⟩ ordered.whole.maps rfl
    fun _ _ _ => ⟨fun open_ => open_, le_rfl⟩) ⟨rfl, relies.attaching, nofun, nofun, nofun⟩ ?_, .refl _⟩
  intro other _ reliesOther apart
  refine ⟨reliesOther, ⟨nofun, nofun, nofun⟩, ⟨?_, ?_, ?_⟩⟩
  · exact fun id own => nofun
  · exact fun id own => nofun
  · rintro shared id reserved own ⟨⟩
    have closed := (reliesOther.reserving shared id object own).2.2.2
    rw [opened] at closed
    cases closed

lemma InOrder.attach (ordered : InOrder system) (found : system.tasks[index]? = some (.attach path object))
    (live : system.shared.sessions (system.shared.infos object).sessionId = some object) :
    Orderly system index
      (system.shared.modify object fun info => { info with attachmentCount := info.attachmentCount + 1 })
      (.finished (.created (system.shared.infos object).sessionId)) := by
  have retains : Retains fun info => { info with attachmentCount := info.attachmentCount + 1 } :=
    ⟨fun _ => rfl, fun _ => rfl⟩
  have opened := system.shared.modify_keeps (f := fun info =>
      { info with attachmentCount := info.attachmentCount + 1 }) SessionInfo.hasSession (fun _ => rfl)
    object
  have relies := ordered.each index _ found
  have inside := (relies.attaching path object rfl).1
  have maps := ordered.whole.maps
  refine ⟨ordered.keeps found (ordered.whole.movedOn found (maps.modify retains object)
    (system.shared.infos object).sessionId ⟨nofun, nofun, nofun⟩ ⟨by rintro _ ⟨⟩; rfl, nofun, nofun⟩
    (fun _ => maps.live_modify live) ?_) ⟨rfl, nofun, nofun, ?_, nofun⟩ ?_, grows_modify retains _ object⟩
  · intro created reserves detaches (more : created = _ + 1) (same : reserves = _ + 0)
      (others : detaches = _ + 0)
    have published := ordered.whole.published _ object live
    have before := ordered.whole.live _ object live
    rw [Manager.live_modify_self live]
    exact ⟨published.imp_right (by omega), by dsimp only; omega⟩
  · rintro _ ⟨⟩
    exact maps.issued object inside
  · intro other _ reliesOther apart
    refine ⟨reliesOther.extend (grows_modify retains _ object) fun _ _ reserved _ => opened reserved,
      ⟨nofun, nofun, nofun⟩, ⟨fun id own => nofun, ?_, fun _ _ _ _ => nofun⟩⟩
    -- a session that is still reserved has not been seen open
    rintro id own ⟨⟩
    obtain ⟨⟨shared, id, reserved⟩, reserving, named⟩ := Option.map_eq_some_iff.mp own
    obtain ⟨insideOther, namedOther, -⟩ := reliesOther.reserving shared id reserved reserving
    cases maps.distinct object inside reserved insideOther (named.symm.trans namedOther.symm)
    exact apart.2.closed shared id object reserving rfl

lemma grows_remove (manager : Manager) (path : Path) (id : SessionId) :
    Grows manager ((manager.mapPath path none).register id none) := by
  refine ⟨le_rfl, le_rfl, fun _ _ => rfl, fun _ _ => rfl, fun other object _ live => ?_⟩
  rcases eq_or_ne other id with rfl | apart
  · rw [Manager.sessions_register_self] at live
    cases live
  · rwa [Manager.sessions_register_of_ne apart] at live

lemma Manager.live_removed : ((manager.mapPath path none).register id none).live id = none := by
  rw [Manager.live, Manager.sessions_register_self, Option.map_none]

lemma Manager.live_remove {other : SessionId} (apart : other ≠ id) :
    ((manager.mapPath path none).register id none).live other = manager.live other := by
  rw [Manager.live, Manager.sessions_register_of_ne apart]
  rfl

section Counted
variable (ordered : InOrder system)
include ordered

/-- Nobody has got a session that is still reserved. -/
lemma InOrder.count_created_of_reserves (found : system.tasks[index]? = some task)
    (reserves : task.reserves = some id) (uncreated : task.created = none) :
    count Task.created id system.tasks = 0 := by
  refine List.countP_eq_zero.mpr fun other there created => ?_
  rw [decide_eq_true_eq] at created
  obtain ⟨place, at_⟩ := List.getElem?_of_mem there
  rcases eq_or_ne place index with rfl | elsewhere
  · rw [found] at at_
    cases at_
    rw [uncreated] at created
    cases created
  · exact (ordered.pair index place task other elsewhere.symm found at_).1.first id reserves created

/-- A call gives up the reservation of a session that has been removed already. -/
lemma InOrder.giveUp (found : system.tasks[index]? = some task) (concerns : task.Concerns id)
    (uncreated : task.created = none) (undetached : task.detaches = none)
    (gone : system.shared.sessions id = none) (object : Nat) :
    Orderly system index system.shared (.completeInitialization object (.failed .coreError)) := by
  refine ⟨ordered.keeps found (ordered.whole.movedOn found ordered.whole.maps id concerns
    ⟨nofun, nofun, nofun⟩ (fun _ _ => rfl) ?_) ⟨rfl, nofun, nofun, nofun, nofun⟩ ?_, .refl _⟩
  · intro created reserves detaches same _ others
    rw [uncreated] at same
    rw [undetached] at others
    rw [Manager.live, gone, Nat.add_right_cancel same, Nat.add_right_cancel others]
    exact ordered.whole.dead id gone
  · exact fun _ _ reliesOther _ => ⟨reliesOther, apart_of_plain rfl rfl rfl⟩

lemma InOrder.removeReserved
    (found : system.tasks[index]? = some (.removeReserved shared id object)) :
    Orderly system index
      ((if system.shared.sessions id = some object then system.shared.register id none else system.shared).releasePath
        shared id)
      (.completeInitialization object (.failed .coreError)) := by
  have maps := ordered.whole.maps
  obtain ⟨inside, named, own, -⟩ := (ordered.each index _ found).reserving shared id object rfl
  split
  · rename_i live
    obtain ⟨-, -, path, ownPath, leads⟩ := maps.registered id object live
    cases own.symm.trans ownPath
    have removed : (system.shared.register id none).releasePath (some path) id =
        (system.shared.mapPath path none).register id none := by
      rw [Manager.releasePath, Manager.fileSessionsByPath_register, if_pos leads]
      rfl
    rw [removed]
    refine ⟨ordered.keeps found (ordered.whole.movedOn found (maps.remove live ownPath) id
      ⟨by rintro _ ⟨⟩, by rintro _ ⟨⟩; rfl, by rintro _ ⟨⟩⟩
      ⟨by rintro _ ⟨⟩, by rintro _ ⟨⟩, by rintro _ ⟨⟩⟩ (fun _ => Manager.live_remove) ?_)
      ⟨rfl, by rintro _ _ ⟨⟩, by rintro _ _ _ ⟨⟩, by rintro _ ⟨⟩, by rintro _ ⟨⟩⟩ ?_, grows_remove _ path id⟩
    · intro created reserves detaches (same : created = _ + 0) _ _
      rw [ordered.count_created_of_reserves found rfl rfl] at same
      rw [Manager.live_removed, same]
      exact Nat.zero_le _
    · exact fun _ _ reliesOther _ =>
        ⟨reliesOther.extend (grows_remove _ path id) fun _ _ _ _ => rfl, apart_of_plain rfl rfl rfl⟩
  · rename_i dead
    have gone := maps.sessions_of_ne inside named dead
    have unchanged : system.shared.releasePath shared id = system.shared := by
      cases shared with
      | none => rfl
      | some path =>
        rw [Manager.releasePath, if_neg]
        intro leads
        obtain ⟨_, live, -⟩ := maps.mapped path id leads
        cases gone.symm.trans live
    rw [unchanged]
    exact ordered.giveUp found ⟨by rintro _ ⟨⟩, by rintro _ ⟨⟩; rfl, by rintro _ ⟨⟩⟩ rfl rfl gone object

lemma InOrder.publish (found : system.tasks[index]? = some (.publish shared id object directory))
    (live : system.shared.sessions id = some object) (retains : Retains change)
    (opens : ∀ info, (change info).hasSession = true)
    (attachmentCount : ∀ info, (change info).attachmentCount = info.attachmentCount) :
    Orderly system index (system.shared.modify object change) (.completeInitialization object (.created id)) := by
  have maps := ordered.whole.maps
  have relies := ordered.each index _ found
  obtain ⟨inside, named, own, -⟩ := relies.reserving shared id object rfl
  refine ⟨ordered.keeps found (ordered.whole.movedOn found (maps.modify retains object) id
    ⟨nofun, by rintro _ ⟨⟩; rfl, nofun⟩ ⟨by rintro _ ⟨⟩; rfl, nofun, nofun⟩
    (fun _ => maps.live_modify live) ?_) ⟨rfl, nofun, nofun, ?_, nofun⟩ ?_, grows_modify retains _ object⟩
  · intro created reserves detaches (more : created = _ + 1) (fewer : reserves + 1 = _ + 0)
      (same : detaches = _ + 0)
    have before := ordered.whole.live id object live
    rw [Manager.live_modify_self live]
    exact ⟨.inl (opens _), by rw [attachmentCount]; omega⟩
  · rintro _ ⟨⟩
    rw [← named]
    exact maps.issued object inside
  · intro other _ reliesOther apart
    refine ⟨reliesOther.extend (grows_modify retains _ object) ?_, ⟨nofun, nofun, nofun⟩,
      ⟨fun id own => nofun, ?_, fun _ _ _ _ => nofun⟩⟩
    · intro sharedOther idOther reserved reserving
      rw [Manager.infos_modify_of_ne]
      rintro rfl
      obtain ⟨-, namedOther, -⟩ := reliesOther.reserving sharedOther idOther reserved reserving
      refine apart.1.alone id rfl ?_
      rw [Task.reserves, reserving, Option.map_some, ← namedOther, named]
    · rintro _ reservesOther ⟨⟩
      exact apart.1.alone id rfl reservesOther

lemma InOrder.detachMissing (found : system.tasks[index]? = some (.begin (.detachSession id)))
    (gone : system.shared.sessions id = none) :
    Orderly system index system.shared (.finished (.detached id false)) := by
  refine ⟨ordered.keeps found (ordered.whole.movedOn found ordered.whole.maps id ⟨nofun, nofun, nofun⟩
    ⟨nofun, nofun, by rintro _ ⟨⟩; rfl⟩ (fun _ _ => rfl) ?_) ⟨rfl, nofun, nofun, nofun, nofun⟩ ?_, .refl _⟩
  · intro created reserves detaches (same : created = _ + 0) _ (more : detaches = _ + 1)
    rw [Manager.live, gone, same, more]
    exact Nat.le_succ_of_le (ordered.whole.dead id gone)
  · exact fun _ _ reliesOther _ => ⟨reliesOther, apart_of_plain rfl rfl rfl⟩

lemma InOrder.detachOne (found : system.tasks[index]? = some (.begin (.detachSession id)))
    (live : system.shared.sessions id = some object)
    (several : (system.shared.infos object).attachmentCount > 1) :
    Orderly system index
      (system.shared.modify object fun info => { info with attachmentCount := info.attachmentCount - 1 })
      (.finished (.detached id true)) := by
  have retains : Retains fun info => { info with attachmentCount := info.attachmentCount - 1 } :=
    ⟨fun _ => rfl, fun _ => rfl⟩
  have opened := system.shared.modify_keeps (f := fun info =>
      { info with attachmentCount := info.attachmentCount - 1 }) SessionInfo.hasSession (fun _ => rfl)
    object
  refine ⟨ordered.keeps found (ordered.whole.movedOn found (ordered.whole.maps.modify retains object) id
    ⟨nofun, nofun, nofun⟩ ⟨nofun, nofun, by rintro _ ⟨⟩; rfl⟩
    (fun _ => ordered.whole.maps.live_modify live) ?_) ⟨rfl, nofun, nofun, nofun, nofun⟩ ?_,
    grows_modify retains _ object⟩
  · intro created reserves detaches (same : created = _ + 0) (others : reserves = _ + 0)
      (more : detaches = _ + 1)
    have published := ordered.whole.published id object live
    have before := ordered.whole.live id object live
    rw [Manager.live_modify_self live]
    exact ⟨published.imp_right (by omega), by dsimp only; omega⟩
  · exact fun _ _ reliesOther _ => ⟨reliesOther.extend (grows_modify retains _ object)
      fun _ _ reserved _ => opened reserved, apart_of_plain rfl rfl rfl⟩

lemma InOrder.detachLast (found : system.tasks[index]? = some (.begin (.detachSession id)))
    (live : system.shared.sessions id = some object)
    (last : (system.shared.infos object).attachmentCount ≤ 1) :
    Orderly system index
      ((system.shared.releasePath (system.shared.infos object).canonicalFilePath
        (system.shared.infos object).sessionId).register (system.shared.infos object).sessionId none)
      (.destroyInfo object (.detached id true)) := by
  obtain ⟨inside, named, path, own, leads⟩ := ordered.whole.maps.registered id object live
  rw [named, own, Manager.releasePath, if_pos leads]
  refine ⟨ordered.keeps found (ordered.whole.movedOn found (ordered.whole.maps.remove live own) id
    ⟨by rintro _ ⟨⟩, by rintro _ ⟨⟩, by rintro _ ⟨⟩⟩ ⟨by rintro _ ⟨⟩, by rintro _ ⟨⟩, by rintro _ ⟨⟩; rfl⟩
    (fun _ => Manager.live_remove) ?_)
    ⟨rfl, by rintro _ _ ⟨⟩, by rintro _ _ _ ⟨⟩, by rintro _ ⟨⟩, ?_⟩ ?_, grows_remove _ path id⟩
  · intro created reserves detaches (same : created = _ + 0) _ (more : detaches = _ + 1)
    have before := ordered.whole.live id object live
    rw [Manager.live_removed, Account]
    omega
  · rintro _ ⟨⟩
    refine ⟨inside, fun again => ?_⟩
    rw [show ((system.shared.mapPath path none).register id none).infos = system.shared.infos from rfl, named,
      Manager.sessions_register_self] at again
    cases again
  · exact fun _ _ reliesOther _ =>
      ⟨reliesOther.extend (grows_remove _ path id) fun _ _ _ _ => rfl, apart_of_plain rfl rfl rfl⟩

lemma InOrder.destroyCore {reply : Reply}
    (found : system.tasks[index]? = some (.destroyCore object reply)) :
    Orderly system index (system.shared.modify object fun info => { info with hasSession := false })
      (.finished reply) := by
  have retains : Retains fun info => { info with hasSession := false } := ⟨fun _ => rfl, fun _ => rfl⟩
  obtain ⟨-, gone⟩ := (ordered.each index _ found).destroying object rfl
  have views : SameViews (.finished reply) (.destroyCore object reply) := ⟨rfl, rfl, rfl⟩
  refine ⟨ordered.keeps found (ordered.whole.same found views (ordered.whole.maps.modify retains object)
    rfl ?_) ⟨rfl, nofun, nofun, (ordered.each index _ found).created, nofun⟩ ?_, grows_modify retains _ object⟩
  · intro id current live
    have apart : current ≠ object := by
      rintro rfl
      obtain ⟨-, named, -⟩ := ordered.whole.maps.registered id current live
      rw [named] at gone
      exact gone live
    rw [Manager.infos_modify_of_ne apart]
    exact ⟨fun opened => opened, le_rfl⟩
  · intro other _ reliesOther apart
    refine ⟨reliesOther.extend (grows_modify retains _ object) ?_, apart.inherit views nofun nofun⟩
    intro shared id reserved reserving
    rcases eq_or_ne reserved object with rfl | apart
    · rw [Manager.infos_modify_self, (reliesOther.reserving shared id reserved reserving).2.2.2]
    · rw [Manager.infos_modify_of_ne apart]

lemma InOrder.fresh (fresh : system.shared.generated < id)
    (found : system.tasks[index]? = some task) :
    task.created ≠ some id ∧ task.reserves ≠ some id := by
  have relies := ordered.each index task found
  constructor
  · intro created
    exact absurd (relies.created id created) (not_le.mpr fresh)
  · intro reserves
    obtain ⟨⟨shared, own, object⟩, reserving, rfl⟩ := Option.map_eq_some_iff.mp reserves
    obtain ⟨inside, named, -⟩ := relies.reserving shared own object reserving
    have issued := ordered.whole.maps.issued object inside
    rw [named] at issued
    exact absurd issued (not_le.mpr fresh)

lemma InOrder.count_fresh (fresh : system.shared.generated < id) :
    count Task.created id system.tasks = 0 ∧ count Task.reserves id system.tasks = 0 := by
  constructor
  · refine List.countP_eq_zero.mpr fun task there created => ?_
    obtain ⟨place, found⟩ := List.getElem?_of_mem there
    exact (ordered.fresh fresh found).1 (of_decide_eq_true created)
  · refine List.countP_eq_zero.mpr fun task there reserves => ?_
    obtain ⟨place, found⟩ := List.getElem?_of_mem there
    exact (ordered.fresh fresh found).2 (of_decide_eq_true reserves)

end Counted

lemma grows_reserved (fresh : manager.generated < id) :
    Grows manager (manager.reserved path id directory) := by
  refine ⟨Nat.le_succ _, le_of_lt fresh, ?_, ?_, ?_⟩
  · intro object inside
    rw [infos_reserved_of_lt inside]
  · intro object inside
    rw [infos_reserved_of_lt inside]
  · intro other object inside live
    rcases eq_or_ne other id with rfl | apart
    · cases sessions_reserved_self.symm.trans live
      exact absurd inside (lt_irrefl _)
    · rwa [sessions_reserved_of_ne apart] at live

lemma Relies.opened (relies : Relies manager task) (opened : task.opened = some object) :
    object < manager.objects := by
  cases task with
  | attach path seen =>
    cases opened
    exact (relies.attaching path object rfl).1
  | _ => cases opened

section Reserving
variable (ordered : InOrder system)
include ordered

lemma InOrder.reserve (found : system.tasks[index]? = some (.begin call))
    (fresh : system.shared.generated < id) (unmapped : system.shared.fileSessionsByPath path = none) :
    Orderly system index (system.shared.reserved path id directory)
      (.openCore (some path) id system.shared.objects) := by
  have maps := ordered.whole.maps
  obtain ⟨createdFresh, reservesFresh⟩ := ordered.count_fresh fresh
  refine ⟨⟨ordered.whole.movedOn found (maps.reserved fresh unmapped) id ⟨nofun, nofun, nofun⟩
    ⟨nofun, by rintro _ ⟨⟩; rfl, nofun⟩ ?_ ?_, ⟨rfl, nofun, ?_, nofun, nofun⟩, ?_⟩, grows_reserved fresh⟩
  · intro other apart
    rw [Manager.live, sessions_reserved_of_ne apart]
    exact Option.map_congr fun current live => infos_reserved_of_lt (maps.registered other current live).1
  · intro created reserves detaches (same : created = _ + 0) (more : reserves = _ + 1) _
    rw [Manager.live, sessions_reserved_self, Option.map_some, infos_reserved_self]
    exact ⟨.inr (by omega), by dsimp only; omega⟩
  · rintro _ _ _ ⟨⟩
    rw [infos_reserved_self]
    exact ⟨Nat.lt_succ_self _, rfl, rfl, rfl⟩
  · intro place other elsewhere there
    have reliesOther := ordered.each place other there
    obtain ⟨uncreated, unreserved⟩ := ordered.fresh fresh there
    refine ⟨reliesOther.extend (grows_reserved fresh) ?_, ⟨?_, ?_, ?_⟩,
      ⟨?_, fun _ _ => nofun, fun _ _ _ _ => nofun⟩⟩
    · intro shared own reserved reserving
      rw [infos_reserved_of_lt (reliesOther.reserving shared own reserved reserving).1]
    · rintro _ ⟨⟩
      exact unreserved
    · rintro _ ⟨⟩
      exact uncreated
    · rintro _ _ _ ⟨⟩ opened
      exact absurd (reliesOther.opened opened) (lt_irrefl _)
    · rintro _ own ⟨⟩
      exact unreserved own

/-- An id has been generated for a creation that cannot be carried out. -/
lemma InOrder.generate (found : system.tasks[index]? = some (.begin call))
    (fresh : system.shared.generated < id) (error : SessionCreateError) :
    Orderly system index { system.shared with generated := id } (.finished (.failed error)) := by
  have maps := ordered.whole.maps
  have views : SameViews (.finished (.failed error)) (.begin call) := ⟨rfl, rfl, rfl⟩
  have issued : Maps { system.shared with generated := id } :=
    ⟨maps.registered, maps.mapped,
      fun object inside => le_trans (maps.issued object inside) (le_of_lt fresh), maps.distinct⟩
  have grows : Grows system.shared { system.shared with generated := id } :=
    ⟨le_rfl, le_of_lt fresh, fun _ _ => rfl, fun _ _ => rfl, fun _ _ _ live => live⟩
  refine ⟨ordered.keeps found (ordered.whole.same found views issued rfl
    fun _ _ _ => ⟨fun opened => opened, le_rfl⟩) ⟨rfl, nofun, nofun, nofun, nofun⟩ ?_, grows⟩
  exact fun _ _ reliesOther _ =>
    ⟨reliesOther.extend grows fun _ _ _ _ => rfl, apart_of_plain rfl rfl rfl⟩

lemma InOrder.fail (found : system.tasks[index]? = some task) (uncreated : task.created = none)
    (unreserved : task.reserves = none) (undetached : task.detaches = none)
    (error : SessionCreateError) : Orderly system index system.shared (.finished (.failed error)) :=
  ordered.keep found ⟨uncreated.symm, unreserved.symm, undetached.symm⟩ nofun nofun
    ⟨rfl, nofun, nofun, nofun, nofun⟩

lemma InOrder.reserveNew (found : system.tasks[index]? = some (.begin (.createSession request)))
    (generated : request.desiredId = none) (file : request.path = some path)
    (unmapped : system.shared.fileSessionsByPath path = none)
    (ran : system.shared.reserveNew request outcome = some (next, moved)) :
    Orderly system index next moved := by
  have shared : request.sharedPath = some path := by
    rw [CreateRequest.sharedPath, generated]
    exact file
  simp only [Manager.reserveNew, generated] at ran
  split at ran
  · rename_i free
    rw [Manager.reserve] at ran
    split at ran
    · cases ran
      exact ordered.generate found free.1 .coreError
    · rename_i directory _
      simp only [shared, file] at ran
      cases ran
      exact ordered.reserve found free.1 unmapped
  · cases ran

lemma InOrder.createSession (found : system.tasks[index]? = some (.begin (.createSession request)))
    (ran : system.shared.createSession request outcome = some (next, moved)) :
    Orderly system index next moved := by
  have sharesFiles := (ordered.each index _ found).sharesFiles
  simp only [Task.sharesFiles, Bool.and_eq_true, Option.isNone_iff_eq_none, Option.isSome_iff_exists]
    at sharesFiles
  obtain ⟨generated, path, file⟩ := sharesFiles
  have shared : request.sharedPath = some path := by
    rw [CreateRequest.sharedPath, generated]
    exact file
  simp only [Manager.createSession, shared] at ran
  split at ran
  · rename_i unmapped
    exact ordered.reserveNew found generated file unmapped ran
  · rename_i id leads
    obtain ⟨object, live, own⟩ := ordered.whole.maps.mapped path id leads
    obtain ⟨inside, -⟩ := ordered.whole.maps.registered id object live
    simp only [live] at ran
    split at ran
    · cases ran
      refine ordered.keep found ⟨rfl, rfl, rfl⟩ (by rintro _ ⟨⟩) (by rintro _ ⟨⟩)
        ⟨rfl, ?_, by rintro _ _ _ ⟨⟩, by rintro _ ⟨⟩, by rintro _ ⟨⟩⟩
      rintro _ _ ⟨⟩
      exact ⟨inside, own⟩
    · cases ran
      exact ordered.fail found rfl rfl rfl .alreadyExists

lemma InOrder.detachSession (found : system.tasks[index]? = some (.begin (.detachSession id)))
    (ran : system.shared.detachSession id = (next, moved)) : Orderly system index next moved := by
  rw [Manager.detachSession] at ran
  split at ran
  · rename_i gone
    cases ran
    exact ordered.detachMissing found gone
  · rename_i object live
    split at ran
    · rename_i several
      cases ran
      exact ordered.detachOne found live several
    · rename_i last
      cases ran
      exact ordered.detachLast found live (not_lt.mp last)

lemma InOrder.advance (found : system.tasks[index]? = some task)
    (ran : advance system.shared task outcome = some (next, moved)) :
    Orderly system index next moved := by
  have relies := ordered.each index task found
  have completes : Retains fun info => { info with initializationComplete := true } :=
    ⟨fun _ => rfl, fun _ => rfl⟩
  cases advances ran with
  | @ended call _ _ _ _ | @removed call _ _ _ _ _ =>
    cases call with
    | createSession request => exact ordered.createSession found ran
    | detachSession id => exact ordered.detachSession found (Option.some.inj ran)
    | destroySession id | tryBegin kind id => cases relies.sharesFiles
  | found _ | reserved _ _ _ => exact ordered.createSession found ran
  | detached => exact ordered.detachSession found (Option.some.inj ran)
  | mutation _ _ | transform _ _ _ | released => cases relies.sharesFiles
  | awaited => exact ordered.keep found ⟨rfl, rfl, rfl⟩ nofun nofun ⟨rfl, relies.attaching, nofun, nofun, nofun⟩
  | seen opened => exact ordered.checkCore found opened
  | unseen | unattached => exact ordered.fail found rfl rfl rfl .coreError
  | attached live => exact ordered.attach found live
  | opened _ | unopened =>
    exact ordered.keep found ⟨rfl, rfl, rfl⟩ (fun _ own => own) nofun ⟨rfl, nofun, relies.reserving, nofun, nofun⟩
  | withdrawn => exact ordered.removeReserved found
  | @published shared id object directory live =>
    obtain ⟨inside, named, own, -⟩ := relies.reserving shared id object rfl
    obtain ⟨-, -, path, ownPath, leads⟩ := ordered.whole.maps.registered id object live
    cases own.symm.trans ownPath
    have kept : ∀ change, (system.shared.modify object change).mapShared (some path) id =
        system.shared.modify object change := fun _ => Manager.mapPath_eq_self leads
    rw [kept]
    exact ordered.publish found live ⟨fun _ => rfl, fun _ => rfl⟩ (fun _ => rfl) fun _ => rfl
  | @unpublished shared id object directory dead =>
    obtain ⟨inside, named, -⟩ := relies.reserving shared id object rfl
    exact ordered.giveUp found ⟨nofun, by rintro _ ⟨⟩; rfl, nofun⟩ rfl rfl
      (ordered.whole.maps.sessions_of_ne inside named dead) object
  | @completed object reply =>
    have views : SameViews (.finished reply) (.completeInitialization object reply) := ⟨rfl, rfl, rfl⟩
    exact ordered.modify found views rfl rfl completes (fun _ => rfl) (fun _ => rfl)
      ⟨rfl, nofun, nofun, relies.created, nofun⟩
  | @destroyedInfo object reply =>
    have views : SameViews (.destroyCore object reply) (.destroyInfo object reply) := ⟨rfl, rfl, rfl⟩
    refine ordered.modify found views rfl rfl completes (fun _ => rfl) (fun _ => rfl)
      ⟨rfl, nofun, nofun, relies.created, ?_⟩
    intro destroyed own
    rw [(completes.infos _ _ _).1]
    exact relies.destroying destroyed own
  | destroyedCore => exact ordered.destroyCore found

end Reserving

lemma Attached.spawned (attached : Attached system) (call : Call) :
    Attached ⟨system.shared, system.tasks ++ [.begin call]⟩ := by
  have counts : ∀ (view : Task → Option SessionId) (id : SessionId), view (.begin call) = none →
      count view id (system.tasks ++ [.begin call]) = count view id system.tasks := by
    intro view id plain
    rw [count, List.countP_append, List.countP_singleton, plain]
    rfl
  refine attached_of_accounted attached.maps fun id => ?_
  rw [Accounted, counts Task.created id rfl, counts Task.reserves id rfl, counts Task.detaches id rfl]
  exact attached.accounted id

lemma InOrder.reached
    (reached : Transition.Reaches (step Task.begin Server.advance) SharesFiles ⟨.create, []⟩ system) :
    InOrder system := by
  refine Holds.reached reached Apart.symm (.empty ?_) ?_ ?_
  · exact ⟨⟨nofun, nofun, nofun, nofun⟩, nofun, nofun, fun _ _ => le_rfl⟩
  · intro system call ordered permitted
    refine ⟨ordered.whole.spawned call, ⟨?_, nofun, nofun, nofun, nofun⟩,
      fun _ _ => apart_of_plain rfl rfl rfl⟩
    cases call with
    | createSession request =>
      simp only [Task.sharesFiles, permitted.1, permitted.2]
      rfl
    | detachSession _ => rfl
    | destroySession _ | tryBegin _ _ => cases permitted
  · intro system index outcome task shared moved ordered _ found ran
    exact (InOrder.advance ordered found ran).toKeeps

end Invariant

section Sharing

/-- The path of a creation that has not ended. -/
def Task.filePath : Task → Option Path
  | .begin (.createSession request) => request.sharedPath
  | .awaitInitialization path _ | .checkCore path _ | .attach path _ => some path
  | .openCore shared _ _ | .removeReserved shared _ _ | .publish shared _ _ _ => shared
  | _ => none

def returned (id : SessionId) (tasks : List Task) : Nat := tasks.count (.finished (.created id))

/-- Sessions are found as long as they have attachments, and there is one for each path. -/
structure Shares (system : System Manager Task) : Prop where
  found : ∀ id, count Task.detaches id system.tasks < returned id system.tasks →
    (system.shared.lockSession id).isSome
  unique : ∀ id other object place, system.shared.sessions id = some object →
    system.shared.sessions other = some place →
    (system.shared.infos object).canonicalFilePath = (system.shared.infos place).canonicalFilePath → id = other
  mapped : ∀ path id, system.shared.fileSessionsByPath path = some id → (system.shared.sessions id).isSome

/-- What a step of a creation does: it goes on with its path, and an id that it gets is that of the session
to which the path then leads. -/
structure Obtains (next : Manager) (task moved : Task) : Prop where
  goesOn : moved.filePath = task.filePath ∨ moved.filePath = none
  created : task.created = none → ∀ id, moved.created = some id →
    ∃ path, task.filePath = some path ∧ next.fileSessionsByPath path = some id ∧ (next.lockSession id).isSome

lemma Task.created_of_reserves (reserves : task.reserves = some id) : task.created = none := by
  cases task with
  | openCore _ _ _ | removeReserved _ _ _ | publish _ _ _ _ => rfl
  | _ => cases reserves

lemma InOrder.lockSession (ordered : InOrder system) (live : system.shared.sessions id = some object)
    (got : 0 < count Task.created id system.tasks) : system.shared.lockSession id = some object := by
  rw [Manager.lockSession, live]
  rcases ordered.whole.published id object live with opened | reserved
  · rw [Option.filter_some, if_pos opened]
  · obtain ⟨task, there, reserves⟩ := List.countP_pos_iff.mp reserved
    obtain ⟨place, found⟩ := List.getElem?_of_mem there
    rw [decide_eq_true_eq] at reserves
    rw [ordered.count_created_of_reserves found reserves (Task.created_of_reserves reserves)] at got
    exact absurd got (lt_irrefl 0)

lemma returned_le_count (id : SessionId) (tasks : List Task) : returned id tasks ≤ count Task.created id tasks := by
  refine List.countP_mono_left fun task _ same => ?_
  rw [eq_of_beq same]
  exact decide_eq_true rfl

lemma InOrder.shares (ordered : InOrder system) : Shares system where
  found id fewer := by
    have got := lt_of_lt_of_le fewer (returned_le_count id system.tasks)
    cases live : system.shared.sessions id with
    | none => exact absurd (ordered.whole.dead id live) (not_le.mpr got)
    | some object =>
      rw [ordered.lockSession live (Nat.zero_lt_of_lt got)]
      rfl
  unique id other object place live liveOther same := ordered.whole.maps.id_of_path live liveOther same
  mapped path id leads := by
    obtain ⟨object, live, -⟩ := ordered.whole.maps.mapped path id leads
    rw [live]
    rfl

/-- A creation gets an id by attaching to a live session or by publishing its own. -/
lemma Relies.obtains (relies : Relies manager task) (ran : advance manager task outcome = some (next, moved)) :
    (moved.filePath = task.filePath ∨ moved.filePath = none) ∧
      (task.created = none → ∀ id, moved.created = some id → ∃ object, next.sessions id = some object ∧
        (next.infos object).canonicalFilePath = task.filePath) := by
  have uncreated : moved.created = none → task.created = none → ∀ id, moved.created = some id →
      ∃ object, next.sessions id = some object ∧ (next.infos object).canonicalFilePath = task.filePath := by
    intro none _ id created
    rw [none] at created
    cases created
  cases advances ran with
  | @ended _ _ reply _ nothing | @removed _ _ _ reply _ nothing =>
    refine ⟨.inr rfl, uncreated ?_⟩
    cases reply with
    | created id => exact absurd rfl (nothing id)
    | _ => rfl
  | found shared => exact ⟨.inl shared.symm, uncreated rfl⟩
  | reserved _ _ _ | awaited | seen _ | opened _ | unopened => exact ⟨.inl rfl, uncreated rfl⟩
  | detached | unseen | unattached | withdrawn | unpublished _ => exact ⟨.inr rfl, uncreated rfl⟩
  | mutation _ _ | transform _ _ _ | released => cases relies.sharesFiles
  | @attached path object live =>
    refine ⟨.inr rfl, ?_⟩
    rintro - _ ⟨⟩
    refine ⟨object, live, ?_⟩
    rw [Manager.infos_modify_self]
    exact (relies.attaching path object rfl).2
  | @published shared id object directory live =>
    obtain ⟨-, -, own, -⟩ := relies.reserving shared id object rfl
    refine ⟨.inr rfl, ?_⟩
    rintro - _ ⟨⟩
    have mapped : ∀ changed : Manager, SameSessions changed (changed.mapShared shared id) :=
      fun changed => sameSessions_mapShared changed shared id
    refine ⟨object, ?_, ?_⟩
    · rw [(mapped _).sessions]
      exact live
    · rw [(mapped _).infos, Manager.infos_modify_self]
      exact own
  | completed | destroyedInfo | destroyedCore =>
    exact ⟨.inr rfl, fun none id created => by cases none.symm.trans created⟩

lemma obtains_refl (next : Manager) (task : Task) : Obtains next task task where
  goesOn := .inl rfl
  created none id created := by cases none.symm.trans created

lemma InOrder.obtains (ordered : InOrder system) (found : system.tasks[index]? = some task)
    (ran : Server.advance system.shared task outcome = some (next, moved)) : Obtains next task moved := by
  obtain ⟨goesOn, obtains⟩ := (ordered.each index task found).obtains ran
  refine ⟨goesOn, fun none id created => ?_⟩
  obtain ⟨object, live, own⟩ := obtains none id created
  have after : InOrder ⟨next, system.tasks.set index moved⟩ :=
    ordered.advanced Apart.symm (InOrder.advance ordered found ran).toKeeps
  have there : (system.tasks.set index moved)[index]? = some moved := by
    rw [List.getElem?_set_self (List.getElem?_eq_some_iff.mp found).1]
  have got : 0 < count Task.created id (system.tasks.set index moved) :=
    List.countP_pos_iff.mpr ⟨moved, List.mem_of_getElem? there, decide_eq_true created⟩
  obtain ⟨-, -, path, ownPath, leads⟩ := after.whole.maps.registered id object live
  refine ⟨path, own.symm.trans ownPath, leads, ?_⟩
  rw [after.lockSession live got]
  rfl

/-- In a step a creation for a path gets an id. -/
def Gets (path : Path) (id : SessionId) (system next : System Manager Task) : Prop :=
  ∃ event done, SharesFiles system event ∧ step Task.begin Server.advance system event = .ok (next, done) ∧
    ∃ (index : Nat) (task moved : Task), system.tasks[index]? = some task ∧
      next.tasks[index]? = some moved ∧ task.filePath = some path ∧ task.created = none ∧
      moved.created = some id

section Moments
variable {next later : System Manager Task}
  (reached : Transition.Reaches (step Task.begin Server.advance) SharesFiles ⟨.create, []⟩ system)
include reached

lemma step_obtains {event : Event Call Outcome} {done : Unit}
    (stepped : step Task.begin Server.advance system event = .ok (next, done))
    (found : system.tasks[index]? = some task) (after : next.tasks[index]? = some moved) :
    Obtains next.shared task moved := by
  cases event with
  | spawn call =>
    rw [step_spawn stepped, List.getElem?_append_left (List.getElem?_eq_some_iff.mp found).1, found] at after
    cases after
    exact obtains_refl _ task
  | advance place outcome =>
    obtain ⟨acting, shared, stepTo, foundActing, ran, rfl⟩ := step_advance stepped
    rcases getElem?_set after with ⟨-, same⟩ | ⟨rfl, rfl⟩
    · cases found.symm.trans same
      exact obtains_refl _ task
    · cases found.symm.trans foundActing
      exact (InOrder.reached reached).obtains found ran

lemma Gets.leads (gets : Gets path id system next) :
    Transition.Reaches (step Task.begin Server.advance) SharesFiles system next ∧
      next.shared.fileSessionsByPath path = some id := by
  obtain ⟨event, done, permitted, stepped, index, task, moved, found, after, path, uncreated, created⟩ := gets
  obtain ⟨own, ownPath, leads, -⟩ := (step_obtains reached stepped found after).created uncreated id created
  rw [path] at ownPath
  cases ownPath
  exact ⟨.step .refl permitted stepped, leads⟩

lemma grows_of_reaches
    (run : Transition.Reaches (step Task.begin Server.advance) SharesFiles system later) :
    Grows system.shared later.shared := by
  induction run with
  | refl => exact .refl _
  | @step _ _ event _ run permitted stepped ih =>
    refine ih.trans ?_
    cases event with
    | spawn call =>
      rw [step_spawn stepped]
      exact .refl _
    | advance place outcome =>
      obtain ⟨acting, shared, stepTo, found, ran, rfl⟩ := step_advance stepped
      exact (InOrder.advance (.reached (reached.trans run)) found ran).grows

/-- A path leads to the same session as long as that lives. -/
lemma leads_while_live
    (run : Transition.Reaches (step Task.begin Server.advance) SharesFiles system later)
    (leads : system.shared.fileSessionsByPath path = some id) (live : (later.shared.sessions id).isSome) :
    later.shared.fileSessionsByPath path = some id := by
  have grows := grows_of_reaches reached run
  have maps := (InOrder.reached reached).whole.maps
  have mapsLater := (InOrder.reached (reached.trans run)).whole.maps
  obtain ⟨object, there, own⟩ := maps.mapped path id leads
  obtain ⟨inside, named, -⟩ := maps.registered id object there
  obtain ⟨current, found⟩ := Option.isSome_iff_exists.mp live
  obtain ⟨insideLater, namedLater, ownPath, ownLater, leadsLater⟩ := mapsLater.registered id current found
  have same : object = current := mapsLater.distinct object (lt_of_lt_of_le inside grows.objects) current
    insideLater (by rw [grows.sessionId object inside, named, namedLater])
  rw [← same, grows.canonicalFilePath object inside, own] at ownLater
  rwa [Option.some.inj ownLater]

end Moments

/-- Sessions that are shared by their paths live as long as they have attachments, and a creation returns
the one that is live at its path when it attaches or publishes: two of them return the same one, unless it
is gone in between. -/
theorem shared_sessions_attached {system : System Manager Task}
    (reached : Transition.Reaches (step Task.begin advance) SharesFiles ⟨.create, []⟩ system) :
    Shares system ∧ (∀ event next done, SharesFiles system event →
      step Task.begin advance system event = .ok (next, done) →
      ∀ (index : Nat) task moved, system.tasks[index]? = some task → next.tasks[index]? = some moved →
        Obtains next.shared task moved) ∧
    ∀ path id other next later last, Gets path id system next →
      Transition.Reaches (step Task.begin advance) SharesFiles next later →
      Gets path other later last → (last.shared.sessions id).isSome → id = other := by
  refine ⟨(InOrder.reached reached).shares, ?_, ?_⟩
  · intro event next done permitted stepped index task moved found after
    exact step_obtains reached stepped found after
  · intro path id other next later last first run second live
    obtain ⟨toNext, leads⟩ := first.leads reached
    obtain ⟨toLast, leadsLast⟩ := second.leads ((reached.trans toNext).trans run)
    have same := leads_while_live (reached.trans toNext) (run.trans toLast) leads live
    exact Option.some.inj (same.symm.trans leadsLast)

end Sharing

instance (system : System Manager Task) (event : Event Call Outcome) :
    Decidable (SharesFiles system event) := by
  rcases event with call | _
  · cases call <;> dsimp only [SharesFiles] <;> infer_instance
  · exact instDecidableTrue

def createReport : Call := .createSession ⟨some "/report", none, none⟩

/-- Steps for which the environment gives all that is asked for, with the next id. -/
def proceedsWith (identifier index steps : Nat) : List (Event Call Outcome) :=
  List.replicate steps (.advance index ⟨identifier, some "managed", some "core", true⟩)

/-- Two creations overlap, but one of them has got its session, and has given it up, before the other
looks for it. -/
theorem overlapping_creations_differ :
    ∃ begun system, Transition.Reaches (step Task.begin advance) SharesFiles ⟨.create, []⟩ begun ∧
      begun.tasks = [.begin createReport, .begin createReport] ∧
      Transition.Reaches (step Task.begin advance) SharesFiles begun system ∧
      system.tasks[0]? = some (.finished (.created 1)) ∧ system.tasks[1]? = some (.finished (.created 2)) := by
  obtain ⟨system, reached, shows⟩ := Transition.exists_reaches (step Task.begin advance) SharesFiles
    ⟨.create, [.begin createReport, .begin createReport]⟩
    (fun system => system.tasks[0]? = some (.finished (.created 1)) ∧
      system.tasks[1]? = some (.finished (.created 2)))
    (proceedsWith 1 0 4 ++ [.spawn (.detachSession 1)] ++ proceedsWith 0 2 3 ++ proceedsWith 2 1 4)
    (by decide +kernel)
  rw [decide_eq_true_eq] at shows
  have permitted : ∀ system, SharesFiles system (.spawn createReport) := fun _ => ⟨rfl, rfl⟩
  exact ⟨_, system, .step (.step .refl (permitted _) rfl) (permitted _) rfl, rfl, reached, shows⟩

/-- Two creations share a session, which is found after one detachment. -/
theorem shared_sessions_attached_twice :
    ∃ system, Transition.Reaches (step Task.begin advance) SharesFiles ⟨.create, []⟩ system ∧
      system.tasks[0]? = some (.finished (.created 1)) ∧ system.tasks[1]? = some (.finished (.created 1)) ∧
      system.tasks[2]? = some (.finished (.detached 1 true)) ∧ (system.shared.lockSession 1).isSome := by
  obtain ⟨system, reached, shows⟩ := Transition.exists_reaches (step Task.begin advance) SharesFiles
    ⟨.create, []⟩
    (fun system => system.tasks = [.finished (.created 1), .finished (.created 1), .finished (.detached 1 true)])
    ([.spawn createReport, .spawn createReport, .spawn (.detachSession 1)] ++ proceedsWith 1 0 2 ++
      proceedsWith 2 1 1 ++ proceedsWith 1 0 2 ++ proceedsWith 2 1 3 ++ proceedsWith 0 2 1)
    (by decide +kernel)
  rw [decide_eq_true_eq] at shows
  refine ⟨system, reached, by rw [shows]; rfl, by rw [shows]; rfl, by rw [shows]; rfl, ?_⟩
  refine (shared_sessions_attached reached).1.found 1 ?_
  rw [shows]
  decide

end OmegaEdit.Server
