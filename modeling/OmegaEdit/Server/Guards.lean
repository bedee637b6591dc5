import OmegaEdit.Server.Manager

/-! Guards of mutations and transforms. A guard is released by the id of its session, which is
looked up again, so a guard that outlives its session can hit another one with the same id. -/
namespace OmegaEdit.Server
open Threads
variable {middle : Manager} {change : SessionInfo → SessionInfo} {info : SessionInfo}
  {transforms mutations : Nat}
variable {manager next : Manager} {task moved : Task} {outcome : Outcome} {kind : SessionOperationKind}
  {id : SessionId} {object : Nat} {system : System Manager Task} {index : Nat}

/-- The call is an unreleased guard of a kind that was started on an object. -/
def Task.guards (kind : SessionOperationKind) (object : Nat) : Task → Bool
  | .guarded ownKind _ ownObject => ownKind = kind && ownObject = object
  | _ => false

def Task.isGuard : Task → Bool
  | .guarded _ _ _ => true
  | _ => false

/-- The number of unreleased guards of a kind that were started on an object. -/
def guardCount (tasks : List Task) (kind : SessionOperationKind) (object : Nat) : Nat :=
  tasks.countP (Task.guards kind object)

/-- The fields of a session tell about its guards, and a transform is alone. -/
structure Exclusive (info : SessionInfo) (transforms mutations : Nat) : Prop where
  transform : info.transformInProgress = true ↔ transforms = 1
  single : transforms ≤ 1
  mutation : info.activeMutations = mutations
  apart : transforms = 0 ∨ mutations = 0

/-- Every live session is exclusive. -/
def Excludes (system : System Manager Task) : Prop :=
  ∀ id object, system.shared.sessions id = some object →
    Exclusive (system.shared.infos object) (guardCount system.tasks .transform object)
      (guardCount system.tasks .mutation object)

/-- The session has no operation of a kind. -/
def SessionInfo.isIdle (info : SessionInfo) : SessionOperationKind → Bool
  | .transform => !info.transformInProgress
  | .mutation => info.activeMutations = 0

/-- A guard is released while its own session is the one with its id, or none is, or that one has no
operation of the same kind. -/
def ReleasesOwn (system : System Manager Task) : Event Call Outcome → Prop
  | .spawn _ => True
  | .advance index _ =>
    match system.tasks[index]? with
    | some (.guarded kind id object) => ∀ current ∈ system.shared.sessions id,
        current = object ∨ (system.shared.infos current).isIdle kind
    | _ => True

section Steps

/-- The sessions stay as they are or are removed, with their operations. -/
structure Quiet (manager next : Manager) : Prop where
  objects : next.objects = manager.objects
  sessions : ∀ id object, next.sessions id = some object → manager.sessions id = some object
  sessionId : ∀ object, (next.infos object).sessionId = (manager.infos object).sessionId
  transform : ∀ object, (next.infos object).transformInProgress = (manager.infos object).transformInProgress
  mutation : ∀ object, (next.infos object).activeMutations = (manager.infos object).activeMutations

/-- A new session is registered under an id that was free. -/
structure Reserved (manager next : Manager) : Prop where
  objects : next.objects = manager.objects + 1
  sessions : ∀ id object, next.sessions id = some object →
    object = manager.objects ∧ (next.infos object).sessionId = id ∨ manager.sessions id = some object
  infos : ∀ object, object ≠ manager.objects → next.infos object = manager.infos object
  transform : (next.infos manager.objects).transformInProgress = false
  mutation : (next.infos manager.objects).activeMutations = 0

/-- What a step can do to sessions and guards. -/
inductive Effect (manager : Manager) (task : Task) : Manager → Task → Prop
  | quiet {after : Manager} {successor : Task} (quiet : Quiet manager after) (old : task.isGuard = false)
      (new : successor.isGuard = false) : Effect manager task after successor
  | reserved {after : Manager} {successor : Task} (reserved : Reserved manager after)
      (old : task.isGuard = false) (new : successor.isGuard = false) : Effect manager task after successor
  | mutation (id : SessionId) (object : Nat) (old : task.isGuard = false)
      (found : manager.sessions id = some object)
      (free : (manager.infos object).transformInProgress = false) :
      Effect manager task
        (manager.modify object fun info => { info with activeMutations := info.activeMutations + 1 })
        (.guarded .mutation id object)
  | transform (id : SessionId) (object : Nat) (old : task.isGuard = false)
      (found : manager.sessions id = some object)
      (free : (manager.infos object).transformInProgress = false)
      (idle : (manager.infos object).activeMutations = 0) :
      Effect manager task (manager.modify object fun info => { info with transformInProgress := true })
        (.guarded .transform id object)
  | release (kind : SessionOperationKind) (id : SessionId) (object : Nat) (guard : task = .guarded kind id object) :
      Effect manager task (manager.finishOperation kind id) (.finished .released)

lemma SameSessions.quiet (same : SameSessions manager next) : Quiet manager next where
  objects := same.objects
  sessions id object found := by rwa [same.sessions] at found
  sessionId object := by rw [same.infos]
  transform object := by rw [same.infos]
  mutation object := by rw [same.infos]

lemma Quiet.trans (first : Quiet manager middle) (second : Quiet middle next) :
    Quiet manager next where
  objects := second.objects.trans first.objects
  sessions id object found := first.sessions id object (second.sessions id object found)
  sessionId object := (second.sessionId object).trans (first.sessionId object)
  transform object := (second.transform object).trans (first.transform object)
  mutation object := (second.mutation object).trans (first.mutation object)

lemma quiet_modify (sessionId : ∀ info, (change info).sessionId = info.sessionId)
    (transform : ∀ info, (change info).transformInProgress = info.transformInProgress)
    (mutation : ∀ info, (change info).activeMutations = info.activeMutations) :
    Quiet manager (manager.modify object change) :=
  ⟨rfl, fun _ _ found => found, manager.modify_keeps _ sessionId object,
    manager.modify_keeps _ transform object, manager.modify_keeps _ mutation object⟩

lemma quiet_register_none (manager : Manager) (id : SessionId) : Quiet manager (manager.register id none) := by
  refine ⟨rfl, ?_, fun _ => rfl, fun _ => rfl, fun _ => rfl⟩
  intro other object found
  rcases eq_or_ne other id with rfl | apart
  · rw [Manager.sessions_register_self] at found
    cases found
  · rwa [Manager.sessions_register_of_ne apart] at found

lemma Adds.reserved (adds : Adds manager next info) (free : info.transformInProgress = false)
    (idle : info.activeMutations = 0) : Reserved manager next where
  objects := adds.objects
  sessions id object found := by
    rw [adds.sessions] at found
    rcases eq_or_ne id info.sessionId with rfl | apart
    · rw [Function.update_self] at found
      cases found
      rw [adds.infos, Function.update_self]
      exact .inl ⟨rfl, rfl⟩
    · rw [Function.update_of_ne apart] at found
      exact .inr found
  infos object apart := by rw [adds.infos, Function.update_of_ne apart]
  transform := by rw [adds.infos, Function.update_self, free]
  mutation := by rw [adds.infos, Function.update_self, idle]

lemma effect_advance (ran : advance manager task outcome = some (next, moved)) :
    Effect manager task next moved := by
  have unchanged : Quiet manager manager := (SameSessions.refl manager).quiet
  cases advances ran with
  | ended same _ => exact .quiet same.quiet rfl rfl
  | found _ | awaited | seen _ | unseen | unattached | opened _ | unopened | unpublished _ =>
    exact .quiet unchanged rfl rfl
  | reserved id directory adds => exact .reserved (adds.reserved rfl rfl) rfl rfl
  | removed _ _ =>
    exact .quiet ((sameSessions_releasePath manager _ _).quiet.trans (quiet_register_none _ _)) rfl rfl
  | detached | attached _ | completed | destroyedInfo | destroyedCore =>
    exact .quiet (quiet_modify (fun _ => rfl) (fun _ => rfl) fun _ => rfl) rfl rfl
  | mutation live free => exact .mutation _ _ rfl live free
  | transform live free idle => exact .transform _ _ rfl live free idle
  | withdrawn =>
    refine .quiet (Quiet.trans ?_ (sameSessions_releasePath _ _ _).quiet) rfl rfl
    split
    · exact quiet_register_none manager _
    · exact unchanged
  | published _ =>
    refine .quiet (Quiet.trans ?_ (sameSessions_mapShared _ _ _).quiet) rfl rfl
    exact quiet_modify (fun _ => rfl) (fun _ => rfl) fun _ => rfl
  | released => exact .release _ _ _ rfl

end Steps

section Invariant

/-- What holds of all sessions and guards. -/
structure Tracked (system : System Manager Task) : Prop where
  excludes : Excludes system
  registered : ∀ id object, system.shared.sessions id = some object →
    object < system.shared.objects ∧ (system.shared.infos object).sessionId = id
  guards : ∀ kind id object, .guarded kind id object ∈ system.tasks →
    object < system.shared.objects ∧ (system.shared.infos object).sessionId = id

lemma guardCount_set (found : system.tasks[index]? = some task) (moved : Task) (kind : SessionOperationKind)
    (object : Nat) :
    guardCount (system.tasks.set index moved) kind object =
      guardCount system.tasks kind object - (if task.guards kind object then 1 else 0) +
        if moved.guards kind object then 1 else 0 := by
  obtain ⟨inside, same⟩ := List.getElem?_eq_some_iff.mp found
  rw [guardCount, List.countP_set inside, same, guardCount]

lemma guards_of_not_isGuard (plain : task.isGuard = false) : task.guards kind object = false := by
  cases task with
  | guarded _ _ _ => cases plain
  | _ => rfl

lemma guardCount_set_plain (found : system.tasks[index]? = some task) (before : task.isGuard = false)
    (after : moved.isGuard = false) (kind : SessionOperationKind) (object : Nat) :
    guardCount (system.tasks.set index moved) kind object = guardCount system.tasks kind object := by
  rw [guardCount_set found, guards_of_not_isGuard before, guards_of_not_isGuard after]
  rfl

lemma Tracked.guardCount_new (tracked : Tracked system) (kind : SessionOperationKind) :
    guardCount system.tasks kind system.shared.objects = 0 := by
  refine List.countP_eq_zero.mpr fun task there guards => ?_
  cases task with
  | guarded ownKind id object =>
    simp only [Task.guards, Bool.and_eq_true, decide_eq_true_eq] at guards
    have old := (tracked.guards ownKind id object there).1
    omega
  | _ =>
    cases guards

/-- The guards after a step were there before, or one is new. -/
lemma guarded_mem_set (there : .guarded kind id object ∈ system.tasks.set index moved) :
    .guarded kind id object ∈ system.tasks ∨ moved = .guarded kind id object := by
  rcases List.mem_or_eq_of_mem_set there with old | new
  · exact .inl old
  · exact .inr new.symm

lemma Tracked.quiet (tracked : Tracked system) (found : system.tasks[index]? = some task)
    (quiet : Quiet system.shared next) (before : task.isGuard = false) (after : moved.isGuard = false) :
    Tracked ⟨next, system.tasks.set index moved⟩ where
  excludes id object live := by
    have exclusive := tracked.excludes id object (quiet.sessions id object live)
    simp only [guardCount_set_plain found before after]
    exact ⟨by rw [quiet.transform, exclusive.transform], exclusive.single,
      by rw [quiet.mutation, exclusive.mutation], exclusive.apart⟩
  registered id object live := by
    rw [quiet.objects, quiet.sessionId]
    exact tracked.registered id object (quiet.sessions id object live)
  guards kind id object there := by
    rw [quiet.objects, quiet.sessionId]
    rcases guarded_mem_set there with old | new
    · exact tracked.guards kind id object old
    · rw [new] at after
      cases after

lemma Tracked.reserved (tracked : Tracked system) (found : system.tasks[index]? = some task)
    (reserved : Reserved system.shared next) (before : task.isGuard = false) (after : moved.isGuard = false) :
    Tracked ⟨next, system.tasks.set index moved⟩ where
  excludes id object live := by
    simp only [guardCount_set_plain found before after]
    rcases reserved.sessions id object live with ⟨rfl, -⟩ | old
    · rw [tracked.guardCount_new, tracked.guardCount_new]
      exact ⟨by rw [reserved.transform]; simp, Nat.zero_le 1, reserved.mutation, .inl rfl⟩
    · have inside := (tracked.registered id object old).1
      rw [reserved.infos object (ne_of_lt inside)]
      exact tracked.excludes id object old
  registered id object live := by
    rw [reserved.objects]
    rcases reserved.sessions id object live with ⟨rfl, same⟩ | old
    · exact ⟨Nat.lt_succ_self _, same⟩
    · obtain ⟨inside, same⟩ := tracked.registered id object old
      rw [reserved.infos object (ne_of_lt inside)]
      exact ⟨Nat.lt_succ_of_lt inside, same⟩
  guards kind id object there := by
    rw [reserved.objects]
    rcases guarded_mem_set there with old | new
    · obtain ⟨inside, same⟩ := tracked.guards kind id object old
      rw [reserved.infos object (ne_of_lt inside)]
      exact ⟨Nat.lt_succ_of_lt inside, same⟩
    · rw [new] at after
      cases after

lemma guards_guarded (kind ownKind : SessionOperationKind) (id : SessionId) (object ownObject : Nat) :
    (Task.guarded ownKind id ownObject).guards kind object = true ↔ ownKind = kind ∧ ownObject = object := by
  rw [Task.guards, Bool.and_eq_true, decide_eq_true_eq, decide_eq_true_eq]

lemma Tracked.modify (tracked : Tracked system)
    (sessionId : ∀ info, (change info).sessionId = info.sessionId)
    (excludes : Excludes ⟨system.shared.modify object change, system.tasks.set index moved⟩)
    (guard : ∀ kind id object, moved = .guarded kind id object → system.shared.sessions id = some object) :
    Tracked ⟨system.shared.modify object change, system.tasks.set index moved⟩ := by
  have same := system.shared.modify_keeps SessionInfo.sessionId sessionId object
  refine ⟨excludes, ?_, ?_⟩
  · intro id object live
    rw [same]
    exact tracked.registered id object live
  · intro kind id object there
    rw [same]
    rcases guarded_mem_set there with old | new
    · exact tracked.guards kind id object old
    · exact tracked.registered id object (guard kind id object new)

/-- An operation begins on a live session, which tells about it. -/
lemma Tracked.begins (tracked : Tracked system) (found : system.tasks[index]? = some task)
    (before : task.isGuard = false) (live : system.shared.sessions id = some object)
    (sessionId : ∀ info, (change info).sessionId = info.sessionId)
    (exclusive : Exclusive (change (system.shared.infos object))
      (guardCount system.tasks .transform object + if kind = .transform then 1 else 0)
      (guardCount system.tasks .mutation object + if kind = .mutation then 1 else 0)) :
    Tracked ⟨system.shared.modify object change, system.tasks.set index (.guarded kind id object)⟩ := by
  refine tracked.modify sessionId ?_ ?_
  · intro id' other live'
    have counts := guardCount_set found (.guarded kind id object)
    simp only [guards_of_not_isGuard before, guards_guarded] at counts
    rcases eq_or_ne other object with rfl | apart
    · rw [Manager.infos_modify_self]
      simpa [counts] using exclusive
    · rw [Manager.infos_modify_of_ne apart]
      simpa [counts, Ne.symm apart] using tracked.excludes id' other live'
  · rintro _ _ _ ⟨⟩
    exact live

lemma Exclusive.no_transform (exclusive : Exclusive info transforms mutations)
    (free : info.transformInProgress = false) :
    transforms = 0 := by
  have single := exclusive.single
  have idle : transforms ≠ 1 := by
    intro one
    rw [exclusive.transform.mpr one] at free
    cases free
  omega

lemma Tracked.mutation (tracked : Tracked system) (found : system.tasks[index]? = some task)
    (before : task.isGuard = false) (live : system.shared.sessions id = some object)
    (free : (system.shared.infos object).transformInProgress = false) :
    Tracked ⟨system.shared.modify object fun info => { info with activeMutations := info.activeMutations + 1 },
      system.tasks.set index (.guarded .mutation id object)⟩ := by
  have exclusive := tracked.excludes id object live
  have none := exclusive.no_transform free
  refine tracked.begins found before live (fun _ => rfl) ⟨?_, ?_, ?_, ?_⟩
  · simp [free, none]
  · simp [none]
  · simp [exclusive.mutation]
  · simp [none]

lemma Tracked.transform (tracked : Tracked system) (found : system.tasks[index]? = some task)
    (before : task.isGuard = false) (live : system.shared.sessions id = some object)
    (free : (system.shared.infos object).transformInProgress = false)
    (idle : (system.shared.infos object).activeMutations = 0) :
    Tracked ⟨system.shared.modify object fun info => { info with transformInProgress := true },
      system.tasks.set index (.guarded .transform id object)⟩ := by
  have exclusive := tracked.excludes id object live
  have none := exclusive.no_transform free
  have mutations : guardCount system.tasks .mutation object = 0 := by rw [← exclusive.mutation, idle]
  refine tracked.begins found before live (fun _ => rfl) ⟨?_, ?_, ?_, ?_⟩
  · simp [none]
  · simp [none]
  · simp [idle, mutations]
  · simp [mutations]

/-- The session that a guard was started on is live under no other id. -/
lemma Tracked.id_of_guard (tracked : Tracked system)
    (found : system.tasks[index]? = some (.guarded kind id object)) {other : SessionId}
    (live : system.shared.sessions other = some object) : other = id := by
  rw [← (tracked.registered other object live).2]
  exact (tracked.guards kind id object (List.mem_of_getElem? found)).2

lemma guardCount_release (found : system.tasks[index]? = some (.guarded kind id object))
    (ownKind : SessionOperationKind) (other : Nat) :
    guardCount (system.tasks.set index (.finished .released)) ownKind other =
      guardCount system.tasks ownKind other - if kind = ownKind ∧ object = other then 1 else 0 := by
  rw [guardCount_set found]
  simp only [guards_guarded]
  rfl

lemma guardCount_pos (found : system.tasks[index]? = some (.guarded kind id object)) :
    0 < guardCount system.tasks kind object :=
  List.countP_pos_iff.mpr ⟨_, List.mem_of_getElem? found, (guards_guarded kind kind id object object).mpr ⟨rfl, rfl⟩⟩

/-- What `finish_operation` does to the session that it finds. -/
def SessionInfo.finish (kind : SessionOperationKind) (info : SessionInfo) : SessionInfo :=
  match kind with
  | .transform => { info with transformInProgress := false }
  | .mutation => { info with activeMutations := info.activeMutations - 1 }

lemma finishOperation_of_some {current : Nat} (live : manager.sessions id = some current) :
    manager.finishOperation kind id = manager.modify current (SessionInfo.finish kind) := by
  rw [Manager.finishOperation, live]
  cases kind with
  | mutation => rfl
  | transform => rfl

lemma Exclusive.finish_own (exclusive : Exclusive info transforms mutations)
    (started : 0 < match kind with | .transform => transforms | .mutation => mutations) :
    Exclusive (info.finish kind) (transforms - if kind = .transform then 1 else 0)
      (mutations - if kind = .mutation then 1 else 0) := by
  have single := exclusive.single
  have apart := exclusive.apart
  cases kind with
  | transform =>
    simp only at started
    refine ⟨?_, ?_, exclusive.mutation, ?_⟩
    · simp [SessionInfo.finish]
      omega
    · simp
      omega
    · simp
      omega
  | mutation =>
    simp only at started
    refine ⟨exclusive.transform, single, ?_, ?_⟩
    · simp [SessionInfo.finish, exclusive.mutation]
    · simp
      omega

/-- The release of a guard that was not started on the session does no harm if there is nothing to end. -/
lemma Exclusive.finish_foreign (exclusive : Exclusive info transforms mutations) :
    Exclusive (info.finish kind) transforms mutations ↔ info.isIdle kind = true := by
  constructor
  · intro after
    cases kind with
    | transform =>
      rw [SessionInfo.isIdle, Bool.not_eq_true', Bool.eq_false_iff]
      intro running
      have one := exclusive.transform.mp running
      cases after.transform.mpr one
    | mutation =>
      have before := exclusive.mutation
      have counted : info.activeMutations - 1 = mutations := after.mutation
      rw [SessionInfo.isIdle, decide_eq_true_eq]
      omega
  · intro idle
    have same : info.finish kind = info := by
      cases kind with
      | transform =>
        rw [SessionInfo.isIdle, Bool.not_eq_true'] at idle
        rw [SessionInfo.finish, ← idle]
      | mutation =>
        rw [SessionInfo.isIdle, decide_eq_true_eq] at idle
        simp only [SessionInfo.finish, idle]
        rw [Nat.zero_sub, ← idle]
    rw [same]
    exact exclusive

/-- Of the sessions other than the one that the guard was started on, none has fewer guards. -/
lemma guardCount_release_of_ne (found : system.tasks[index]? = some (.guarded kind id object))
    (ownKind : SessionOperationKind) {other : Nat} (apart : other ≠ object) :
    guardCount (system.tasks.set index (.finished .released)) ownKind other =
      guardCount system.tasks ownKind other := by
  rw [guardCount_release found, if_neg fun same => apart same.2.symm, Nat.sub_zero]

/-- A release leaves every live session exclusive exactly if it does no harm to the session with its id. -/
lemma Tracked.excludes_release (tracked : Tracked system)
    (found : system.tasks[index]? = some (.guarded kind id object)) :
    Excludes ⟨system.shared.finishOperation kind id, system.tasks.set index (.finished .released)⟩ ↔
      ∀ current ∈ system.shared.sessions id, current = object ∨
        (system.shared.infos current).isIdle kind = true := by
  cases lookup : system.shared.sessions id with
  | none =>
    refine ⟨fun _ => nofun, fun _ id' other live => ?_⟩
    rw [Manager.finishOperation, lookup] at live ⊢
    have apart : other ≠ object := by
      rintro rfl
      cases tracked.id_of_guard found live
      rw [lookup] at live
      cases live
    simp only [guardCount_release_of_ne found _ apart]
    exact tracked.excludes id' other live
  | some current =>
    rw [finishOperation_of_some lookup]
    have exclusive := tracked.excludes id current lookup
    rcases eq_or_ne current object with rfl | foreign
    · refine ⟨fun _ other same => .inl (Option.some.inj same).symm, fun _ id' other live => ?_⟩
      rcases eq_or_ne other current with rfl | apart
      · rw [Manager.infos_modify_self]
        simp only [guardCount_release found, and_true]
        refine exclusive.finish_own ?_
        have started := guardCount_pos found
        cases kind with
        | transform | mutation => exact started
      · rw [Manager.infos_modify_of_ne apart]
        simp only [guardCount_release_of_ne found _ apart]
        exact tracked.excludes id' other live
    · constructor
      · intro excludes other same
        cases same
        have after := excludes id current lookup
        rw [Manager.infos_modify_self] at after
        simp only [guardCount_release_of_ne found _ foreign] at after
        exact .inr (exclusive.finish_foreign.mp after)
      · intro harmless id' other live
        have apart : other ≠ object := by
          rintro rfl
          cases tracked.id_of_guard found live
          exact foreign (Option.some.inj (lookup.symm.trans live))
        simp only [guardCount_release_of_ne found _ apart]
        rcases eq_or_ne other current with rfl | elsewhere
        · rw [Manager.infos_modify_self]
          exact exclusive.finish_foreign.mpr ((harmless other rfl).resolve_left foreign)
        · rw [Manager.infos_modify_of_ne elsewhere]
          exact tracked.excludes id' other live

lemma Tracked.release (tracked : Tracked system)
    (found : system.tasks[index]? = some (.guarded kind id object))
    (excludes : Excludes ⟨system.shared.finishOperation kind id, system.tasks.set index (.finished .released)⟩) :
    Tracked ⟨system.shared.finishOperation kind id, system.tasks.set index (.finished .released)⟩ := by
  cases lookup : system.shared.sessions id with
  | none =>
    rw [Manager.finishOperation, lookup] at excludes ⊢
    refine ⟨excludes, tracked.registered, fun kind id object there => ?_⟩
    rcases guarded_mem_set there with old | new
    · exact tracked.guards kind id object old
    · cases new
  | some current =>
    rw [finishOperation_of_some lookup] at excludes ⊢
    refine tracked.modify ?_ excludes nofun
    intro info
    cases kind with
    | transform | mutation => rfl

lemma Tracked.spawned (tracked : Tracked system) (call : Call) :
    Tracked ⟨system.shared, system.tasks ++ [.begin call]⟩ where
  excludes id object live := by
    have counts : ∀ kind, guardCount (system.tasks ++ [.begin call]) kind object =
        guardCount system.tasks kind object := by
      intro kind
      rw [guardCount, List.countP_append]
      rfl
    simp only [counts]
    exact tracked.excludes id object live
  registered := tracked.registered
  guards kind id object there := by
    rcases List.mem_append.mp there with old | new
    · exact tracked.guards kind id object old
    · cases List.mem_singleton.mp new

/-- A step that releases no guard keeps everything, and one that does is right exactly if it does no harm. -/
lemma Tracked.advanced (tracked : Tracked system) (found : system.tasks[index]? = some task)
    (ran : advance system.shared task outcome = some (next, moved)) :
    (ReleasesOwn system (.advance index outcome) → Tracked ⟨next, system.tasks.set index moved⟩) ∧
      (Excludes ⟨next, system.tasks.set index moved⟩ → ReleasesOwn system (.advance index outcome)) := by
  have plain : task.isGuard = false → ReleasesOwn system (.advance index outcome) := by
    intro plain
    rw [ReleasesOwn, found]
    cases task with
    | guarded _ _ _ => cases plain
    | _ => trivial
  cases effect_advance ran with
  | quiet quiet old new => exact ⟨fun _ => tracked.quiet found quiet old new, fun _ => plain old⟩
  | reserved reserved old new => exact ⟨fun _ => tracked.reserved found reserved old new, fun _ => plain old⟩
  | mutation id object old live free =>
    exact ⟨fun _ => tracked.mutation found old live free, fun _ => plain old⟩
  | transform id object old live free idle =>
    exact ⟨fun _ => tracked.transform found old live free idle, fun _ => plain old⟩
  | release kind id object guard =>
    subst guard
    have excludes := tracked.excludes_release found
    rw [ReleasesOwn, found]
    exact ⟨fun harmless => tracked.release found (excludes.mpr harmless), excludes.mp⟩

end Invariant

/-- As long as no guard is released into an operation of another session with its id, every live session
has its own guards only, and a transform excludes all others; and only such a release breaks that. -/
theorem transforms_exclude_mutations {system : System Manager Task}
    (reached : Transition.Reaches (step Task.begin advance) ReleasesOwn ⟨.create, []⟩ system) :
    Excludes system ∧ ∀ event next done, step Task.begin advance system event = .ok (next, done) →
      (Excludes next ↔ ReleasesOwn system event) := by
  have tracked : Tracked system := by
    refine reached.invariant ⟨nofun, nofun, nofun⟩ ?_
    intro system next event done tracked permitted stepped
    cases event with
    | spawn call =>
      rw [step_spawn stepped]
      exact tracked.spawned call
    | advance index outcome =>
      obtain ⟨task, shared, moved, found, ran, rfl⟩ := step_advance stepped
      exact (tracked.advanced found ran).1 permitted
  refine ⟨tracked.excludes, fun event next done stepped => ?_⟩
  cases event with
  | spawn call =>
    rw [step_spawn stepped]
    exact ⟨fun _ => trivial, fun _ => (tracked.spawned call).excludes⟩
  | advance index outcome =>
    obtain ⟨task, shared, moved, found, ran, rfl⟩ := step_advance stepped
    obtain ⟨keeps, needs⟩ := tracked.advanced found ran
    exact ⟨needs, fun permitted => (keeps permitted).excludes⟩

instance (system : System Manager Task) (event : Event Call Outcome) :
    Decidable (ReleasesOwn system event) := by
  unfold ReleasesOwn
  split
  · infer_instance
  · split <;> infer_instance

/-- Steps for which the environment gives all that is asked for. -/
def proceeds (index steps : Nat) : List (Event Call Outcome) :=
  List.replicate steps (.advance index ⟨1, some "managed", some "core", true⟩)

/-- The creation of a session with an id that the caller has chosen. -/
def createSeven : Call := .createSession ⟨none, some 7, none⟩

/-- A transform is begun, its session is destroyed, another one is created with the same id, and a transform
is begun on that one; then the first guard is released. -/
def reuseOfId : List (Event Call Outcome) :=
  [.spawn createSeven] ++ proceeds 0 4 ++ [.spawn (.tryBegin .transform 7)] ++ proceeds 1 1 ++
    [.spawn (.destroySession 7)] ++ proceeds 2 3 ++ [.spawn createSeven] ++ proceeds 3 4 ++
    [.spawn (.tryBegin .transform 7)] ++ proceeds 4 1

theorem released_into_new_session :
    ∃ system, Transition.Reaches (step Task.begin advance) (fun _ _ => True) ⟨.create, []⟩ system ∧
      ¬ Excludes system := by
  obtain ⟨system, reached, shows⟩ := Transition.exists_reaches (step Task.begin advance) (fun _ _ => True)
    ⟨.create, []⟩
    (fun system => system.shared.sessions 7 = some 1 ∧ (system.shared.infos 1).transformInProgress = false ∧
      guardCount system.tasks .transform 1 = 1)
    (reuseOfId ++ proceeds 1 1) (by decide +kernel)
  rw [decide_eq_true_eq] at shows
  obtain ⟨live, ended, guarded⟩ := shows
  refine ⟨system, reached, fun excludes => ?_⟩
  rw [(excludes 7 1 live).transform.mpr guarded] at ended
  cases ended

/-- The new guard may be released first. -/
theorem transforms_exclude_mutations_reused :
    ∃ system, Transition.Reaches (step Task.begin advance) ReleasesOwn ⟨.create, []⟩ system ∧
      system.shared.sessions 7 = some 1 ∧ Excludes system := by
  obtain ⟨system, reached, shows⟩ := Transition.exists_reaches (step Task.begin advance) ReleasesOwn
    ⟨.create, []⟩ (fun system => system.shared.sessions 7 = some 1)
    (reuseOfId ++ proceeds 4 1 ++ proceeds 1 1) (by decide +kernel)
  rw [decide_eq_true_eq] at shows
  exact ⟨system, reached, shows, (transforms_exclude_mutations reached).1⟩

end OmegaEdit.Server
