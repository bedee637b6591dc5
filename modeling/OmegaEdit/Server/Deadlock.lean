import OmegaEdit.Server.LockOrder

/-! The session manager does not deadlock, as long as no viewport is created in a session that
is still being opened. Locks are ranked by the state: the core lock of a session that is being
opened ranks above `mutex_`, that of any other session below it, and subscription locks rank
above all. -/
namespace OmegaEdit.Server.Locking
open Threads
variable {data after : Data} {place successor other : Place} {choice : Choice} {task : Task} {id : SessionId}
  {object : Nat} {system : System (Locks.Shared Data Lock) Place} {index : Nat}

section Invariant

lemma initializes_of_creates (creates : Locking.creates task = some (id, object)) :
    initializes task = some object := by
  cases task with
  | openCore _ _ _ | removeReserved _ _ _ | publish _ _ _ _ =>
    cases creates
    rfl
  | _ => cases creates

lemma initializes_of_opens (opens : Locking.opens task = some object) : initializes task = some object := by
  cases task with
  | publish _ _ _ _ => exact opens
  | _ => cases opens

lemma initializes_or_destroys (completes : Locking.completes task = some object) :
    initializes task = some object ∨ destroys task = some object := by
  cases task with
  | completeInitialization _ _ => exact .inl completes
  | destroyInfo _ _ => exact .inr completes
  | _ => cases completes

/-- Two calls hold different locks and have made different objects. -/
structure Apart (place other : Place) : Prop where
  locks : Locks.Separate Place.holds place other
  objects : ∀ object, place.initializes = some object → other.initializes ≠ some object

lemma Apart.symm (apart : Apart place other) : Apart other place :=
  ⟨apart.locks.symm, fun object own ownOther => apart.objects object ownOther own⟩

/-- Another call opens or initializes a registered session only if it has made it. -/
lemma TaskRelies.extend (relies : TaskRelies data.manager task) (own : other.part.managed = some task)
    (moves : Moves data place after successor) (reliesPlace : Relies data place) (apart : Apart place other) :
    TaskRelies after.manager task := by
  have goes := moves.goes
  have foreign : ∀ object, Locking.initializes task = some object → place.initializes ≠ some object := by
    intro object made madeToo
    refine apart.objects object madeToo ?_
    rw [Place.initializes, own, Option.bind_some, made]
  refine ⟨?_, ?_, ?_, ?_⟩
  · intro id object creates
    obtain ⟨inside, named, closed, uninitialized⟩ := relies.creates id object creates
    have made := initializes_of_creates creates
    refine ⟨lt_of_lt_of_le inside goes.objects, by rw [goes.sessionId object inside, named], ?_, ?_⟩
    · rw [← Bool.not_eq_true]
      intro opened
      rcases goes.hasSession object inside opened with before | opens
      · cases closed.symm.trans before
      · obtain ⟨acting, ownActing, opensActing⟩ := Option.bind_eq_some_iff.mp opens
        refine foreign object made ?_
        rw [Place.initializes, ownActing, Option.bind_some, initializes_of_opens opensActing]
    · intro live
      have liveBefore := goes.sessions id object inside live
      rw [← Bool.not_eq_true]
      intro complete
      rcases goes.initialization object inside complete with before | completes
      · cases (uninitialized liveBefore).symm.trans before
      · obtain ⟨acting, ownActing, completesActing⟩ := Option.bind_eq_some_iff.mp completes
        rcases initializes_or_destroys completesActing with madeToo | destroys
        · refine foreign object made ?_
          rw [Place.initializes, ownActing, Option.bind_some, madeToo]
        · refine ((reliesPlace.managed acting ownActing).destroys object destroys).2 ?_
          rw [named, liveBefore]
  · intro object made
    exact lt_of_lt_of_le (relies.initializes object made) goes.objects
  · intro object destroys
    obtain ⟨inside, gone⟩ := relies.destroys object destroys
    refine ⟨lt_of_lt_of_le inside goes.objects, fun live => gone ?_⟩
    rw [goes.sessionId object inside] at live
    exact goes.sessions _ object inside live
  · intro object reply same
    have inside := (relies.destroys object (by rw [same]; rfl)).1
    exact goes.complete object inside (relies.completed object reply same)

lemma mutex_mem_of_publishes (publishes : place.publishes = some (id, object)) : Lock.mutex ∈ place.holds := by
  cases place with
  | outside part | inside part => cases publishes
  | wanting part =>
    cases part with
    | manage task =>
      cases task with
      | publish _ _ _ _ => exact List.mem_singleton_self _
      | _ => cases publishes
    | _ => cases publishes
  | within part =>
    cases part with
    | manage task =>
      cases task with
      | publish _ _ _ _ => exact List.mem_cons_of_mem _ (List.mem_singleton_self _)
      | _ => cases publishes
    | _ => cases publishes

/-- What a call relies on stays when another one goes on. -/
lemma Relies.extend (relies : Relies data other) (moves : Moves data place after successor)
    (reliesPlace : Relies data place) (apart : Apart place other) : Relies after other where
  managed task own := (relies.managed task own).extend own moves reliesPlace apart
  publishes id object publishes := by
    have held := mutex_mem_of_publishes publishes
    rw [moves.sessions fun heldToo => apart.locks .mutex heldToo held]
    exact relies.publishes id object publishes
  settled object settled := by
    obtain ⟨inside, before⟩ := relies.settled object settled
    exact ⟨lt_of_lt_of_le inside moves.goes.objects, moves.goes.settled object inside before⟩
  uses object uses := lt_of_lt_of_le (relies.uses object uses) moves.goes.objects

/-- The session of a viewport that is created, when its core lock is about to be taken. -/
def Place.createsIn : Place → Option Nat
  | .outside (.openViewport _ object _ _) => some object
  | _ => none

/-- A viewport is created in a session only when that session is published or given up. -/
def OpensSettled (system : System (Locks.Shared Data Lock) Place) : Event Call Choice → Prop
  | .spawn _ => True
  | .advance index _ => ∀ object ∈ system.tasks[index]?.bind Place.createsIn,
    opening system.shared.data.manager object = false

lemma publishes_within (part : Part) : (Place.within part).publishes = (Place.wanting part).publishes := by
  cases part with
  | manage task =>
    cases task with
    | _ => rfl
  | _ => rfl

lemma moves_acquired (relies : Relies data place)
    (settled : ∀ object ∈ place.createsIn, opening data.manager object = false) :
    Moves data place data place.acquired := by
  cases place with
  | outside part =>
    refine moves_keep rfl ⟨relies.managed, nofun, ?_, relies.uses⟩ (.inl rfl)
    cases part with
    | openViewport id object viewportId viewport =>
      rintro _ ⟨⟩
      exact ⟨relies.uses object rfl, settled object rfl⟩
    | _ => exact relies.settled
  | wanting part =>
    refine moves_keep rfl ⟨relies.managed, ?_, relies.settled, relies.uses⟩ (.inl rfl)
    rw [Place.acquired, publishes_within]
    exact relies.publishes
  | inside part | within part => exact moves_keep rfl relies (.inl rfl)

/-- The locks that calls hold are taken, and sessions are registered under their ids. -/
structure Consistent (system : System (Locks.Shared Data Lock) Place) : Prop where
  taken : Locks.Taken Place.holds system
  registered : Registered system.shared.data.manager

def InOrder (system : System (Locks.Shared Data Lock) Place) : Prop :=
  Holds Consistent (fun shared place => Relies shared.data place) Apart system

lemma moves_advance (registered : Registered data.manager) (relies : Relies data place)
    (settled : ∀ object ∈ place.createsIn, opening data.manager object = false)
    {shared next : Locks.Shared Data Lock} (same : shared.data = data)
    (ran : discipline.advance shared place choice = some (next, successor)) :
    Moves data place next.data successor := by
  subst same
  rcases (Locks.advance_cases ran).2 with ⟨lock, waiting, -, kept, rfl⟩ | ⟨free, ran⟩
  · rw [kept]
    exact moves_acquired relies settled
  · exact (proceeds_body ran).moves registered relies free

/-- An object that a call makes is not one that another call has made. -/
lemma Moves.objects (moves : Moves data place after successor) (apart : Apart place other)
    (relies : Relies data other) :
    ∀ object, successor.initializes = some object → other.initializes ≠ some object := by
  intro object made madeToo
  rcases moves.initializes object made with before | ⟨rfl, -⟩
  · exact apart.objects object before madeToo
  · obtain ⟨task, own, initializes⟩ := Option.bind_eq_some_iff.mp madeToo
    exact absurd ((relies.managed task own).initializes _ initializes) (lt_irrefl _)

lemma InOrder.reached
    (reached : Transition.Reaches (step Place.begin discipline.advance) OpensSettled ⟨.start .create, []⟩ system) :
    InOrder system := by
  refine Holds.reached reached Apart.symm (.empty ⟨nofun, nofun⟩) ?_ ?_
  · intro system call ordered _
    have plain : (Place.begin call).holds = [] ∧ (Place.begin call).initializes = none ∧
        Relies system.shared.data (Place.begin call) := by
      cases call with
      | manage call =>
        refine ⟨rfl, rfl, ?_, nofun, nofun, nofun⟩
        rintro _ ⟨⟩
        exact taskRelies_plain rfl rfl rfl
      | _ => exact ⟨rfl, rfl, Plain.relies ⟨rfl, rfl, rfl, rfl⟩⟩
    obtain ⟨unlocked, unmade, relies⟩ := plain
    refine ⟨⟨?_, ordered.whole.registered⟩, relies, fun other _ => ⟨?_, ?_⟩⟩
    · intro place task there lock held
      rcases getElem?_snoc there with old | ⟨-, rfl⟩
      · exact ordered.whole.taken place task old lock held
      · rw [unlocked] at held
        cases held
    · intro lock held
      rw [unlocked] at held
      cases held
    · intro object made
      cases unmade.symm.trans made
  · intro system index choice place shared successor ordered permitted found ran
    have relies := ordered.each index place found
    have settled : ∀ object ∈ place.createsIn, opening system.shared.data.manager object = false := by
      intro object own
      refine permitted object ?_
      rw [found]
      exact own
    have moves := moves_advance ordered.whole.registered relies settled rfl ran
    have apart : ∀ (other : Nat) task, other ≠ index → system.tasks[other]? = some task → Apart place task :=
      fun other task elsewhere there => ordered.pair index other place task (Ne.symm elsewhere) found there
    refine ⟨⟨?_, moves.goes.registered ordered.whole.registered⟩, moves.relies, ?_⟩
    · exact Locks.taken_advance ordered.whole.taken
        (fun other task elsewhere there => (apart other task elsewhere there).locks) ran
    · intro other task elsewhere there
      have reliesOther := ordered.each other task there
      have apartOther := apart other task elsewhere there
      refine ⟨reliesOther.extend moves relies apartOther, ?_, moves.objects apartOther reliesOther⟩
      exact Locks.separate_advance ran apartOther.locks (ordered.whole.taken other task there)

def rank (manager : Manager) : Lock → Nat
  | .core object => if opening manager object then 3 else 1
  | .mutex => 2
  | .sessionSubscriptions _ | .viewportSubscriptions _ | .initialization _ => 4

lemma rank_core_lt_callback (manager : Manager) (object : Nat) (callback : Callback) (owner : Nat) :
    rank manager (.core object) < rank manager (callback.lock owner) := by
  have subscriptions : rank manager (callback.lock owner) = 4 := by
    cases callback with
    | session | viewport _ => rfl
  rw [subscriptions, rank]
  split
  · decide
  · decide

lemma rank_core_lt_mutex {manager : Manager} (settled : opening manager object = false) :
    rank manager (.core object) < rank manager .mutex := by
  rw [rank, rank, settled]
  decide

/-- A call waits only for a lock that ranks above those it holds. -/
lemma Relies.ranked (relies : Relies data place) {lock : Lock} (waiting : place.waits = some lock) :
    ∀ held ∈ place.holds, rank data.manager held < rank data.manager lock := by
  cases place with
  | outside part => exact nofun
  | inside part | within part => cases waiting
  | wanting part =>
    cases part with
    | manage task =>
      cases task with
      | publish shared id object directory =>
        cases waiting
        intro held there
        cases List.mem_singleton.mp there
        -- the session is registered and has not been published, so it is still being opened
        obtain ⟨-, -, closed, uninitialized⟩ := (relies.managed _ rfl).creates id object rfl
        have isOpening : opening data.manager object = true := by
          rw [opening, closed, uninitialized (relies.publishes id object rfl)]
          rfl
        rw [rank, rank, isOpening]
        decide
      | _ => cases waiting
    | eraseViewport id object viewportId | progress object id =>
      cases waiting
      intro held there
      cases List.mem_singleton.mp there
      exact rank_core_lt_mutex (relies.settled object rfl).2
    | callbacks object remaining ending =>
      cases remaining with
      | nil => cases waiting
      | cons callback rest =>
        cases waiting
        intro held there
        cases List.mem_singleton.mp there
        exact rank_core_lt_callback _ object callback object
    | closeViewport object viewport | changeViewport object viewport subscribes =>
      cases waiting
      intro held there
      cases List.mem_singleton.mp there
      exact rank_core_lt_callback _ object (.viewport viewport) object
    | progressTo object target =>
      cases waiting
      intro held there
      cases List.mem_singleton.mp there
      exact rank_core_lt_callback _ object .session target
    | _ => cases waiting

end Invariant

/-- As long as no viewport is created in a session that is still being opened, the calls never wait for
each other's locks in a circle. -/
theorem locks_never_deadlock {system : System (Locks.Shared Data Lock) Place}
    (reached : Transition.Reaches (step Place.begin discipline.advance) OpensSettled ⟨.start .create, []⟩ system) :
    ¬ Locks.Deadlock Place.holds Place.waits system.tasks := by
  have ordered := InOrder.reached reached
  refine Locks.not_deadlock (rank system.shared.data.manager) ?_
  intro place there lock waiting
  obtain ⟨index, found⟩ := List.getElem?_of_mem there
  exact (ordered.each index place found).ranked waiting

instance (system : System (Locks.Shared Data Lock) Place) (event : Event Call Choice) :
    Decidable (OpensSettled system event) := by
  unfold OpensSettled
  split <;> infer_instance

def createSession : Call := .manage (.createSession ⟨none, some 7, none⟩)

/-- Steps for which the environment gives all that is asked for. -/
def steps (index count : Nat) : List (Event Call Choice) :=
  List.replicate count
    (.advance index ⟨⟨1, some "managed", some "core", true⟩, 1, false, true, [.session], .release⟩)

/-- A session is reserved, and a viewport is asked for. -/
def viewportInReserved : List (Event Call Choice) :=
  [.spawn createSession] ++ steps 0 2 ++ [.spawn (.createViewport 7 none)] ++ steps 1 2

/-- The one thread holds `mutex_` and waits for the core lock of the session that it publishes, the other
one holds that core lock and waits for `mutex_`. -/
theorem publishing_deadlocks_with_viewport :
    ∃ system, Transition.Reaches (step Place.begin discipline.advance) (fun _ _ => True)
        ⟨.start .create, []⟩ system ∧ Locks.Deadlock Place.holds Place.waits system.tasks := by
  obtain ⟨system, reached, shows⟩ := Transition.exists_reaches (step Place.begin discipline.advance)
    (fun _ _ => True) ⟨.start .create, []⟩
    (fun system => system.tasks = [.wanting (.manage (.publish none 7 0 "core")), .wanting (.eraseViewport 7 0 1)])
    (viewportInReserved ++ steps 0 1 ++ steps 1 2 ++ steps 0 2) (by decide +kernel)
  rw [decide_eq_true_eq] at shows
  refine ⟨system, reached, {0, 1}, ⟨0, Finset.mem_insert_self 0 _⟩, ?_⟩
  rw [shows]
  intro member there
  rcases Finset.mem_insert.mp there with rfl | second
  · exact ⟨_, _, rfl, rfl, 1, by decide, by decide, _, rfl, by decide⟩
  · rw [Finset.mem_singleton.mp second]
    exact ⟨_, _, rfl, rfl, 0, by decide, by decide, _, rfl, by decide⟩

/-- The session is published first, and the viewport is created in it. -/
theorem locks_never_deadlock_published :
    ∃ system, Transition.Reaches (step Place.begin discipline.advance) OpensSettled ⟨.start .create, []⟩ system ∧
      system.shared.data.opened 0 = true ∧ ¬ Locks.Deadlock Place.holds Place.waits system.tasks := by
  obtain ⟨system, reached, shows⟩ := Transition.exists_reaches (step Place.begin discipline.advance)
    OpensSettled ⟨.start .create, []⟩ (fun system => system.shared.data.opened 0 = true)
    (viewportInReserved ++ steps 0 5 ++ steps 1 6) (by decide +kernel)
  rw [decide_eq_true_eq] at shows
  exact ⟨system, reached, shows, locks_never_deadlock reached⟩

end OmegaEdit.Server.Locking
