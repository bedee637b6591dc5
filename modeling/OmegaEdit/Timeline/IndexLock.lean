import OmegaEdit.Library.Threads

/-! The lock of the history index: calls of `withIndexLock` by any number of processes that share a
history root. The lock is the file `.lock`, created exclusively and removed by its owner; one that
is older than `lockStaleMs` is renamed away by anybody who waits. Time passes before each step. -/
namespace OmegaEdit.Timeline.IndexLock
open Threads
universe u
variable {ι : Type u}

def lockStaleMs : Nat := 2 * 60 * 1000

/-- The lock file; nothing has been written to a new one. -/
structure LockFile where
  token : Nat
  acquiredAt : Option Nat
deriving DecidableEq, Repr

/-- The history root, with the operations whose results have been written to `index.json`. -/
structure Root (ι : Type u) where
  now : Nat
  tokens : Nat
  lock : Option LockFile
  index : ι
  log : List (ι → Option ι)

/-- A call of `withIndexLock`, by what it does next. -/
inductive Task (ι : Type u) where
  | begin (operation : ι → Option ι)
  | acquire (operation : ι → Option ι) (token : Nat)
  | inspect (operation : ι → Option ι) (token : Nat)
  | assess (operation : ι → Option ι) (token seen acquiredAt : Nat)
  | recover (operation : ι → Option ι) (token seen : Nat)
  | wait (operation : ι → Option ι) (token : Nat)
  | stamp (operation : ι → Option ι) (token since : Nat)
  | writeLock (operation : ι → Option ι) (token since acquiredAt : Nat)
  | readIndex (operation : ι → Option ι) (token since : Nat)
  | writeIndex (operation : ι → Option ι) (token since : Nat) (index : ι)
  | release (token since : Nat)
  | removeLock (token since : Nat)
  | finished

/-- The operation of a step succeeds or fails, or the process ends. -/
inductive Result where
  | succeeds
  | fails
  | crashes
deriving DecidableEq, Repr

structure Outcome where
  elapsed : Nat
  result : Result
deriving DecidableEq, Repr

/-- What a call does when the next thing that it does fails. -/
def Task.failed : Task ι → Task ι
  | .begin _ | .acquire _ _ => .finished
  -- the errors of `recoverStaleLock` are ignored
  | .inspect operation token | .assess operation token _ _ | .recover operation token _ => .wait operation token
  -- the time to wait is over
  | .wait _ _ => .finished
  -- a lock that could not be written is left behind
  | .stamp _ _ _ | .writeLock _ _ _ _ => .finished
  | .readIndex _ token since | .writeIndex _ token since _ => .release token since
  | .release _ _ | .removeLock _ _ | .finished => .finished

/-- What a call does next, if that succeeds. -/
def Root.proceed (root : Root ι) : Task ι → Root ι × Task ι
  | .begin operation => ({ root with tokens := root.tokens + 1 }, .acquire operation root.tokens)
  | .acquire operation token =>
    match root.lock with
    | none => ({ root with lock := some ⟨token, none⟩ }, .stamp operation token root.now)
    | some _ => (root, .inspect operation token)
  | .inspect operation token =>
    match root.lock with
    | some ⟨seen, some acquiredAt⟩ => (root, .assess operation token seen acquiredAt)
    | _ => (root, .wait operation token)
  | .assess operation token seen acquiredAt =>
    if root.now - acquiredAt ≤ lockStaleMs then (root, .wait operation token)
    else (root, .recover operation token seen)
  | .recover operation token _ => ({ root with lock := none }, .wait operation token)
  | .wait operation token => (root, .acquire operation token)
  | .stamp operation token since => (root, .writeLock operation token since root.now)
  | .writeLock operation token since acquiredAt =>
    -- the file that was created, if it is still in its place
    if root.lock.any (·.token = token) then
      ({ root with lock := some ⟨token, some acquiredAt⟩ }, .readIndex operation token since)
    else (root, .readIndex operation token since)
  | .readIndex operation token since => (root, .writeIndex operation token since root.index)
  | .writeIndex operation token since index =>
    match operation index with
    | none => (root, .release token since)
    | some next => ({ root with index := next, log := root.log ++ [operation] }, .release token since)
  | .release token since =>
    match root.lock with
    | some ⟨found, some _⟩ => if found = token then (root, .removeLock token since) else (root, .finished)
    | _ => (root, .finished)
  | .removeLock _ _ => ({ root with lock := none }, .finished)
  | .finished => (root, .finished)

def Root.later (root : Root ι) (elapsed : Nat) : Root ι := { root with now := root.now + elapsed }

/-- The next step of a call, after some time. -/
def advance (root : Root ι) (task : Task ι) (outcome : Outcome) : Option (Root ι × Task ι) :=
  match outcome.result with
  | .succeeds => some ((root.later outcome.elapsed).proceed task)
  | .fails => some (root.later outcome.elapsed, task.failed)
  | .crashes => some (root.later outcome.elapsed, .finished)

/-- The token and the time of a call that has created the lock and not yet released it. -/
def Task.holder : Task ι → Option (Nat × Nat)
  | .stamp _ token since | .writeLock _ token since _ | .readIndex _ token since
  | .writeIndex _ token since _ | .release token since | .removeLock token since => some (token, since)
  | _ => none

/-- Every call that holds the lock ends, or dies, in time. -/
def Timely (system : System (Root ι) (Task ι)) : Event (ι → Option ι) Outcome → Prop
  | .spawn _ => True
  | .advance _ outcome => ∀ task ∈ system.tasks, ∀ holder ∈ task.holder,
    system.shared.now + outcome.elapsed ≤ holder.2 + lockStaleMs

/-- A lock that is renamed away is the one that was judged to be stale. -/
def KeepsLock (system : System (Root ι) (Task ι)) : Event (ι → Option ι) Outcome → Prop
  | .spawn _ => True
  | .advance index outcome =>
    match system.tasks[index]? with
    | some (.recover _ _ seen) =>
      outcome.result = .succeeds → ∀ file ∈ system.shared.lock, file.token = seen
    | _ => True

/-- An index after some operations, one after the other. -/
def replay (initial : ι) (operations : List (ι → Option ι)) : Option ι :=
  operations.foldlM (fun index operation => operation index) initial

/-- An empty history root. -/
def Root.create (initial : ι) : Root ι := ⟨0, 0, none, initial, []⟩

section Invariant

/-- The token of a call that has not created the lock yet. -/
def Task.waiting : Task ι → Option Nat
  | .acquire _ token | .inspect _ token | .assess _ token _ _ | .recover _ token _ | .wait _ token => some token
  | _ => none

/-- The time of a call that has created the lock, and the time that it is about to write to it. -/
def Task.stamped : Task ι → Option (Nat × Nat)
  | .writeLock _ _ since acquiredAt => some (since, acquiredAt)
  | _ => none

/-- The lock that a call has looked at, with its time as long as that is not judged. -/
def Task.seen : Task ι → Option (Nat × Option Nat)
  | .assess _ _ seen acquiredAt => some (seen, some acquiredAt)
  | .recover _ _ seen => some (seen, none)
  | _ => none

/-- The index that a call has read. -/
def Task.copy : Task ι → Option ι
  | .writeIndex _ _ _ index => some index
  | _ => none

/-- The lock has an old token, and the index is the result of all operations. -/
structure Consistent (initial : ι) (root : Root ι) : Prop where
  lock : ∀ file, root.lock = some file → file.token < root.tokens
  index : replay initial root.log = some root.index

/-- What a call relies on. -/
structure Relies (root : Root ι) (task : Task ι) : Prop where
  waiting : ∀ token, task.waiting = some token →
    token < root.tokens ∧ ∀ file, root.lock = some file → file.token ≠ token
  holding : ∀ token since, task.holder = some (token, since) →
    token < root.tokens ∧ since ≤ root.now ∧ ∃ file, root.lock = some file ∧ file.token = token ∧
      ∀ acquiredAt, file.acquiredAt = some acquiredAt → since ≤ acquiredAt
  stamped : ∀ since acquiredAt, task.stamped = some (since, acquiredAt) → since ≤ acquiredAt
  seen : ∀ seen acquiredAt, task.seen = some (seen, acquiredAt) → seen < root.tokens
  copy : ∀ index, task.copy = some index → index = root.index

/-- The lock that a call has looked at is not one that another call is still to create, and if that one
holds it, it is too new to be judged stale. -/
def Sees (task other : Task ι) : Prop :=
  ∀ seen acquiredAt, task.seen = some (seen, acquiredAt) → other.waiting ≠ some seen ∧
    ∀ since, other.holder = some (seen, since) → ∃ time, acquiredAt = some time ∧ since ≤ time

/-- Two calls have different tokens. -/
structure Distinct (task other : Task ι) : Prop where
  waiting : ∀ token, task.waiting = some token → other.waiting ≠ some token
  holding : ∀ token since, task.holder = some (token, since) → other.waiting ≠ some token
  held : ∀ token since, other.holder = some (token, since) → task.waiting ≠ some token
  both : ∀ token since since', task.holder = some (token, since) → other.holder ≠ some (token, since')

structure Apart (task other : Task ι) : Prop where
  distinct : Distinct task other
  sees : Sees task other
  seen : Sees other task

variable {root : Root ι} {task moved other : Task ι} {initial : ι}

lemma Apart.symm (apart : Apart task other) : Apart other task where
  distinct := ⟨fun token own others => apart.distinct.waiting token others own, apart.distinct.held,
    apart.distinct.holding, fun token since since' own others =>
      apart.distinct.both token since' since others own⟩
  sees := apart.seen
  seen := apart.sees

lemma not_both_hold (relies : Relies root task) (reliesOther : Relies root other) (apart : Apart task other)
    {token since token' since' : Nat} (holds : task.holder = some (token, since)) :
    other.holder ≠ some (token', since') := by
  intro holdsOther
  obtain ⟨-, -, file, there, rfl, -⟩ := relies.holding token since holds
  obtain ⟨-, -, found, thereOther, rfl, -⟩ := reliesOther.holding token' since' holdsOther
  rw [there] at thereOther
  cases thereOther
  exact apart.distinct.both file.token since since' holds holdsOther

/-- A call is no more than it was before. -/
structure Inherits (moved task : Task ι) : Prop where
  waiting : ∀ token, moved.waiting = some token → task.waiting = some token
  holder : ∀ holder, moved.holder = some holder → task.holder = some holder
  stamped : ∀ times, moved.stamped = some times → task.stamped = some times
  seen : ∀ lock, moved.seen = some lock → task.seen = some lock
  copy : ∀ index, moved.copy = some index → task.copy = some index

lemma Relies.inherit (relies : Relies root task) (inherits : Inherits moved task) : Relies root moved where
  waiting token own := relies.waiting token (inherits.waiting token own)
  holding token since own := relies.holding token since (inherits.holder _ own)
  stamped since acquiredAt own := relies.stamped since acquiredAt (inherits.stamped _ own)
  seen seen acquiredAt own := relies.seen seen acquiredAt (inherits.seen _ own)
  copy index own := relies.copy index (inherits.copy _ own)

lemma Apart.inherit (apart : Apart task other) (inherits : Inherits moved task) : Apart moved other where
  distinct := ⟨fun token own => apart.distinct.waiting token (inherits.waiting token own),
    fun token since own => apart.distinct.holding token since (inherits.holder _ own),
    fun token since others own => apart.distinct.held token since others (inherits.waiting token own),
    fun token since since' own => apart.distinct.both token since since' (inherits.holder _ own)⟩
  sees seen acquiredAt own := apart.sees seen acquiredAt (inherits.seen _ own)
  seen seen acquiredAt others :=
    ⟨fun own => (apart.seen seen acquiredAt others).1 (inherits.waiting _ own),
      fun since own => (apart.seen seen acquiredAt others).2 since (inherits.holder _ own)⟩

lemma inherits_finished (task : Task ι) : Inherits .finished task := ⟨nofun, nofun, nofun, nofun, nofun⟩

lemma inherits_failed (task : Task ι) : Inherits task.failed task := by
  cases task with
  | begin _ | acquire _ _ | wait _ _ | stamp _ _ _ | writeLock _ _ _ _ | release _ _ | removeLock _ _
  | finished => exact inherits_finished _
  | inspect operation token | assess operation token _ _ | recover operation token _ =>
    exact ⟨fun _ own => own, nofun, nofun, nofun, nofun⟩
  | readIndex _ token since | writeIndex _ token since _ =>
    exact ⟨nofun, fun _ own => own, nofun, nofun, nofun⟩

lemma Relies.later (relies : Relies root task) (elapsed : Nat) : Relies (root.later elapsed) task where
  waiting := relies.waiting
  holding token since own := by
    obtain ⟨old, past, file⟩ := relies.holding token since own
    exact ⟨old, Nat.le_add_right_of_le past, file⟩
  stamped := relies.stamped
  seen := relies.seen
  copy := relies.copy

variable {system : System (Root ι) (Task ι)} {index : Nat}

/-- What holds of all calls together. -/
def InOrder (initial : ι) (system : System (Root ι) (Task ι)) : Prop :=
  Holds (fun system => Consistent initial system.shared) Relies Apart system

/-- The system stays in order when a call moves on. -/
abbrev Orderly (initial : ι) := Keeps (fun system => Consistent initial system.shared) Relies Apart

lemma InOrder.later (ordered : InOrder initial system) (elapsed : Nat) :
    InOrder initial ⟨system.shared.later elapsed, system.tasks⟩ :=
  ⟨⟨ordered.whole.lock, ordered.whole.index⟩,
    fun place task found => (ordered.each place task found).later elapsed, ordered.pair⟩

/-- While a call holds the lock, no other one does. -/
lemma Apart.alone (apart : Apart task other) (relies : Relies root task) (reliesOther : Relies root other)
    {token since : Nat} (holds : task.holder = some (token, since)) : other.holder = none := by
  cases held : other.holder with
  | none => rfl
  | some holder => exact absurd held (not_both_hold relies reliesOther apart holds)

lemma InOrder.inherits (ordered : InOrder initial system) (found : system.tasks[index]? = some task)
    (inherits : Inherits moved task) : Orderly initial system index system.shared moved :=
  ordered.keeps found ordered.whole ((ordered.each index task found).inherit inherits)
    fun _ _ relies apart => ⟨relies, apart.inherit inherits⟩

lemma holder_of_copy {copy : ι} (copied : task.copy = some copy) : task.holder ≠ none := by
  cases task with
  | writeIndex operation token since index => exact nofun
  | _ => cases copied

/-- A call without the lock does not rely on the file of anybody else. -/
lemma Relies.relock (relies : Relies root task) (idle : task.holder = none) {lock : Option LockFile}
    (foreign : ∀ token, task.waiting = some token → ∀ file, lock = some file → file.token ≠ token) :
    Relies { root with lock } task where
  waiting token own := ⟨(relies.waiting token own).1, foreign token own⟩
  holding token since own := by
    rw [idle] at own
    cases own
  stamped := relies.stamped
  seen := relies.seen
  copy := relies.copy

variable {operation : ι → Option ι} {token since seen acquiredAt : Nat}

section Ordered
variable (ordered : InOrder initial system)
include ordered

lemma InOrder.begin (found : system.tasks[index]? = some task) :
    Orderly initial system index { system.shared with tokens := system.shared.tokens + 1 }
      (.acquire operation system.shared.tokens) := by
  refine ordered.keeps found ⟨?_, ordered.whole.index⟩ ⟨?_, nofun, nofun, nofun, nofun⟩ ?_
  · intro file there
    exact Nat.lt_succ_of_lt (ordered.whole.lock file there)
  · rintro _ ⟨⟩
    exact ⟨Nat.lt_succ_self _, fun file there => ne_of_lt (ordered.whole.lock file there)⟩
  · intro other _ relies _
    constructor
    · constructor
      · intro token own
        exact ⟨Nat.lt_succ_of_lt (relies.waiting token own).1, (relies.waiting token own).2⟩
      · intro token since own
        obtain ⟨old, rest⟩ := relies.holding token since own
        exact ⟨Nat.lt_succ_of_lt old, rest⟩
      · exact relies.stamped
      · intro seen acquiredAt own
        exact Nat.lt_succ_of_lt (relies.seen seen acquiredAt own)
      · exact relies.copy
    · -- every token in use is older than the new one
      refine ⟨⟨?_, nofun, ?_, nofun⟩, nofun, ?_⟩
      · rintro _ ⟨⟩ own
        exact lt_irrefl _ (relies.waiting _ own).1
      · rintro _ since own ⟨⟩
        exact lt_irrefl _ (relies.holding _ since own).1
      · intro seen acquiredAt own
        refine ⟨?_, nofun⟩
        rintro ⟨⟩
        exact lt_irrefl _ (relies.seen _ acquiredAt own)

lemma InOrder.create (found : system.tasks[index]? = some (.acquire operation token))
    (free : system.shared.lock = none) :
    Orderly initial system index { system.shared with lock := some ⟨token, none⟩ }
      (.stamp operation token system.shared.now) := by
  have relies := ordered.each index _ found
  have old := (relies.waiting token rfl).1
  refine ordered.keeps found ⟨?_, ordered.whole.index⟩ ⟨nofun, ?_, nofun, nofun, nofun⟩ ?_
  · rintro _ ⟨⟩
    exact old
  · rintro _ _ ⟨⟩
    exact ⟨old, le_rfl, _, rfl, rfl, nofun⟩
  · intro other _ reliesOther apart
    have idle : other.holder = none := by
      cases held : other.holder with
      | none => rfl
      | some holder =>
        obtain ⟨-, -, file, locked, -⟩ := reliesOther.holding holder.1 holder.2 held
        rw [free] at locked
        cases locked
    refine ⟨reliesOther.relock idle ?_, ⟨nofun, ?_, ?_, ?_⟩, nofun, ?_⟩
    · rintro _ own _ ⟨⟩ rfl
      exact apart.distinct.waiting token rfl own
    · rintro _ _ ⟨⟩
      exact apart.distinct.waiting token rfl
    · rintro _ _ _ ⟨⟩
    · intro _ _ _ _ held
      rw [idle] at held
      cases held
    · intro seen acquiredAt own
      refine ⟨nofun, ?_⟩
      rintro _ ⟨⟩
      exact absurd rfl (apart.seen _ acquiredAt own).1

lemma InOrder.inspect (found : system.tasks[index]? = some (.inspect operation token))
    (locked : system.shared.lock = some ⟨seen, some acquiredAt⟩) :
    Orderly initial system index system.shared (.assess operation token seen acquiredAt) := by
  have relies := ordered.each index _ found
  refine ordered.keeps found ordered.whole ⟨relies.waiting, nofun, nofun, ?_, nofun⟩ ?_
  · rintro _ _ ⟨⟩
    exact ordered.whole.lock _ locked
  · intro other _ reliesOther apart
    have distinct := apart.distinct
    refine ⟨reliesOther, ⟨distinct.waiting, nofun, distinct.held, nofun⟩, ?_, apart.seen⟩
    rintro _ _ ⟨⟩
    constructor
    · intro own
      exact (reliesOther.waiting _ own).2 _ locked rfl
    · intro since own
      obtain ⟨-, -, file, there, -, newer⟩ := reliesOther.holding _ since own
      rw [locked] at there
      cases there
      exact ⟨acquiredAt, rfl, newer acquiredAt rfl⟩

lemma InOrder.judge (found : system.tasks[index]? = some (.assess operation token seen acquiredAt))
    (timely : ∀ task ∈ system.tasks, ∀ holder ∈ task.holder, system.shared.now ≤ holder.2 + lockStaleMs)
    (stale : ¬ system.shared.now - acquiredAt ≤ lockStaleMs) :
    Orderly initial system index system.shared (.recover operation token seen) := by
  have relies := ordered.each index _ found
  refine ordered.keeps found ordered.whole ⟨relies.waiting, nofun, nofun, ?_, nofun⟩ ?_
  · rintro _ _ ⟨⟩
    exact relies.seen seen (some acquiredAt) rfl
  · intro other member reliesOther apart
    have distinct := apart.distinct
    refine ⟨reliesOther, ⟨distinct.waiting, nofun, distinct.held, nofun⟩, ?_, apart.seen⟩
    rintro _ _ ⟨⟩
    obtain ⟨created, newer⟩ := apart.sees seen (some acquiredAt) rfl
    refine ⟨created, fun since own => ?_⟩
    obtain ⟨_, ⟨⟩, past⟩ := newer since own
    have inTime := timely other member (seen, since) own
    simp only at inTime
    omega

lemma InOrder.recover (found : system.tasks[index]? = some (.recover operation token seen))
    (judged : ∀ file, system.shared.lock = some file → file.token = seen) :
    Orderly initial system index { system.shared with lock := none } (.wait operation token) := by
  have relies := ordered.each index _ found
  refine ordered.keeps found ⟨nofun, ordered.whole.index⟩ ⟨?_, nofun, nofun, nofun, nofun⟩ ?_
  · intro own same
    exact ⟨(relies.waiting own same).1, nofun⟩
  · intro other _ reliesOther apart
    have idle : other.holder = none := by
      cases held : other.holder with
      | none => rfl
      | some holder =>
        obtain ⟨-, -, file, locked, same, -⟩ := reliesOther.holding holder.1 holder.2 held
        rw [judged file locked] at same
        obtain ⟨_, ⟨⟩, _⟩ := (apart.sees seen none rfl).2 holder.2 (by rw [held, same])
    exact ⟨reliesOther.relock idle fun _ _ => nofun, apart.inherit ⟨fun _ own => own, nofun, nofun, nofun, nofun⟩⟩

lemma InOrder.writeLock
    (found : system.tasks[index]? = some (.writeLock operation token since acquiredAt)) :
    Orderly initial system index { system.shared with lock := some ⟨token, some acquiredAt⟩ }
      (.readIndex operation token since) := by
  have relies := ordered.each index _ found
  obtain ⟨old, past, file, locked, same, -⟩ := relies.holding token since rfl
  refine ordered.keeps found ⟨?_, ordered.whole.index⟩ ⟨nofun, ?_, nofun, nofun, nofun⟩ ?_
  · rintro _ ⟨⟩
    exact old
  · rintro _ _ ⟨⟩
    refine ⟨old, past, _, rfl, rfl, ?_⟩
    rintro _ ⟨⟩
    exact relies.stamped since acquiredAt rfl
  · intro other _ reliesOther apart
    refine ⟨reliesOther.relock (apart.alone relies reliesOther rfl) ?_,
      apart.inherit ⟨nofun, fun _ own => own, nofun, nofun, nofun⟩⟩
    rintro own waits _ ⟨⟩
    rw [← same]
    exact (reliesOther.waiting own waits).2 file locked

lemma InOrder.writeIndex {copy next : ι}
    (found : system.tasks[index]? = some (.writeIndex operation token since copy))
    (operated : operation copy = some next) :
    Orderly initial system index
      { system.shared with index := next, log := system.shared.log ++ [operation] } (.release token since) := by
  have relies := ordered.each index _ found
  have current := relies.copy copy rfl
  refine ordered.keeps found ⟨ordered.whole.lock, ?_⟩ ⟨nofun, relies.holding, nofun, nofun, nofun⟩ ?_
  · rw [replay, List.foldlM_append, ← replay, ordered.whole.index, ← current]
    simp [operated]
  · intro other _ reliesOther apart
    refine ⟨⟨reliesOther.waiting, reliesOther.holding, reliesOther.stamped, reliesOther.seen, ?_⟩,
      apart.inherit ⟨nofun, fun _ own => own, nofun, nofun, nofun⟩⟩
    intro index copied
    exact absurd (apart.alone relies reliesOther rfl) (holder_of_copy copied)

lemma InOrder.removeLock (found : system.tasks[index]? = some (.removeLock token since)) :
    Orderly initial system index { system.shared with lock := none } .finished := by
  refine ordered.keeps found ⟨nofun, ordered.whole.index⟩ ⟨nofun, nofun, nofun, nofun, nofun⟩ ?_
  intro other _ reliesOther apart
  have idle := apart.alone (ordered.each index _ found) reliesOther rfl
  exact ⟨reliesOther.relock idle fun _ _ => nofun, apart.inherit (inherits_finished _)⟩

/-- The next thing that a call does keeps all calls in order, if the lock that it renames away is the
judged one. -/
lemma InOrder.proceed (found : system.tasks[index]? = some task)
    (timely : ∀ task ∈ system.tasks, ∀ holder ∈ task.holder, system.shared.now ≤ holder.2 + lockStaleMs)
    (judged : ∀ operation token seen, task = .recover operation token seen →
      ∀ file, system.shared.lock = some file → file.token = seen) :
    Orderly initial system index (system.shared.proceed task).1 (system.shared.proceed task).2 := by
  cases task with
  | begin operation => exact ordered.begin found
  | acquire operation token =>
    rw [Root.proceed]
    split
    · rename_i free
      exact ordered.create found free
    · exact ordered.inherits found ⟨fun _ own => own, nofun, nofun, nofun, nofun⟩
  | inspect operation token =>
    rw [Root.proceed]
    split
    · rename_i locked
      exact ordered.inspect found locked
    · exact ordered.inherits found ⟨fun _ own => own, nofun, nofun, nofun, nofun⟩
  | assess operation token seen acquiredAt =>
    rw [Root.proceed]
    split
    · exact ordered.inherits found ⟨fun _ own => own, nofun, nofun, nofun, nofun⟩
    · rename_i stale
      exact ordered.judge found timely stale
  | recover operation token seen => exact ordered.recover found (judged operation token seen rfl)
  | wait operation token => exact ordered.inherits found ⟨fun _ own => own, nofun, nofun, nofun, nofun⟩
  | stamp operation token since =>
    have relies := ordered.each index _ found
    refine ordered.keeps found ordered.whole ⟨nofun, relies.holding, ?_, nofun, nofun⟩ ?_
    · rintro _ _ ⟨⟩
      exact (relies.holding token since rfl).2.1
    · intro other _ reliesOther apart
      exact ⟨reliesOther, ⟨nofun, apart.distinct.holding, nofun, apart.distinct.both⟩, nofun, apart.seen⟩
  | writeLock operation token since acquiredAt =>
    rw [Root.proceed]
    split
    · exact ordered.writeLock found
    · exact ordered.inherits found ⟨nofun, fun _ own => own, nofun, nofun, nofun⟩
  | readIndex operation token since =>
    have relies := ordered.each index _ found
    refine ordered.keeps found ordered.whole ⟨nofun, relies.holding, nofun, nofun, ?_⟩ ?_
    · rintro _ ⟨⟩
      rfl
    · intro other _ reliesOther apart
      exact ⟨reliesOther, ⟨nofun, apart.distinct.holding, nofun, apart.distinct.both⟩, nofun, apart.seen⟩
  | writeIndex operation token since copy =>
    rw [Root.proceed]
    split
    · exact ordered.inherits found ⟨nofun, fun _ own => own, nofun, nofun, nofun⟩
    · rename_i operated
      exact ordered.writeIndex found operated
  | release token since =>
    rw [Root.proceed]
    split
    · split
      · exact ordered.inherits found ⟨nofun, fun _ own => own, nofun, nofun, nofun⟩
      · exact ordered.inherits found (inherits_finished _)
    · exact ordered.inherits found (inherits_finished _)
  | removeLock token since => exact ordered.removeLock found
  | finished => exact ordered.inherits found (inherits_finished _)

/-- Every step in time that renames away no lock but the judged one keeps all calls in order. -/
lemma InOrder.advance (found : system.tasks[index]? = some task) {outcome : Outcome}
    (timely : Timely system (.advance index outcome))
    (keeps : KeepsLock system (.advance index outcome))
    (ran : advance system.shared task outcome = some (root, moved)) :
    Orderly initial system index root moved := by
  have later := ordered.later outcome.elapsed
  rw [IndexLock.advance] at ran
  split at ran
  · rename_i succeeds
    have judged : ∀ operation token seen, task = .recover operation token seen →
        ∀ file, system.shared.lock = some file → file.token = seen := by
      rintro operation token seen rfl
      rw [KeepsLock, found] at keeps
      exact keeps succeeds
    have orderly := later.proceed found timely judged
    rw [Option.some.inj ran] at orderly
    exact ⟨orderly.whole, orderly.own, orderly.others⟩
  · cases ran
    have orderly := later.inherits found (inherits_failed task)
    exact ⟨orderly.whole, orderly.own, orderly.others⟩
  · cases ran
    have orderly := later.inherits found (inherits_finished task)
    exact ⟨orderly.whole, orderly.own, orderly.others⟩

end Ordered

end Invariant

/-- If every holder ends in time and no lock but the judged one is renamed away, at most one call is
between acquiring and releasing the lock, and no operation on the index is lost. -/
theorem index_lock_exclusive (initial : ι) {system : System (Root ι) (Task ι)}
    (reached : Transition.Reaches (step Task.begin advance)
      (fun system event => Timely system event ∧ KeepsLock system event) ⟨.create initial, []⟩ system) :
    (∀ (first second : Nat) task other, first ≠ second → system.tasks[first]? = some task →
      system.tasks[second]? = some other → task.holder = none ∨ other.holder = none) ∧
    replay initial system.shared.log = some system.shared.index := by
  have ordered : InOrder initial system := by
    refine Holds.reached reached Apart.symm (.empty ⟨nofun, rfl⟩) ?_ ?_
    · intro system operation ordered _
      exact ⟨ordered.whole, ⟨nofun, nofun, nofun, nofun, nofun⟩, fun _ _ =>
        ⟨⟨nofun, nofun, fun _ _ _ => nofun, nofun⟩, nofun, fun _ _ _ => ⟨nofun, nofun⟩⟩⟩
    · intro system index outcome task root moved ordered permitted found ran
      exact InOrder.advance ordered found permitted.1 permitted.2 ran
  refine ⟨fun first second task other apart found there => ?_, ordered.whole.index⟩
  cases held : task.holder with
  | none => exact .inl rfl
  | some holder =>
    have both := ordered.pair first second task other apart found there
    exact .inr (both.alone (ordered.each first task found) (ordered.each second other there) held)

def increment (count : Nat) : Option Nat := some (count + 1)

instance (system : System (Root ι) (Task ι)) (event : Event (ι → Option ι) Outcome) :
    Decidable (Timely system event) := by
  unfold Timely
  split <;> infer_instance

instance (system : System (Root ι) (Task ι)) (event : Event (ι → Option ι) Outcome) :
    Decidable (KeepsLock system event) := by
  unfold KeepsLock
  split
  · infer_instance
  · split <;> infer_instance

/-- A call whose next steps succeed without delay. -/
def runs (index steps : Nat) : List (Event (Nat → Option Nat) Outcome) :=
  List.replicate steps (.advance index ⟨0, .succeeds⟩)

/-- One process dies with the lock, and two others judge it to be stale; the second of them has renamed
it away and created a new one when the first renames that one away. -/
theorem two_processes_hold_lock :
    ∃ system, Transition.Reaches (step Task.begin advance) Timely ⟨.create 0, []⟩ system ∧
      (system.tasks[1]?).any (·.holder.isSome) = true ∧ (system.tasks[2]?).any (·.holder.isSome) = true := by
  obtain ⟨system, reached, shows⟩ := Transition.exists_reaches (step Task.begin advance) Timely
    ⟨.create 0, []⟩
    (fun system => (system.tasks[1]?).any (·.holder.isSome) && (system.tasks[2]?).any (·.holder.isSome))
    ([.spawn increment, .spawn increment, .spawn increment] ++ runs 0 4 ++ [.advance 0 ⟨0, .crashes⟩] ++
      runs 1 3 ++ [.advance 1 ⟨lockStaleMs + 1, .succeeds⟩] ++ runs 2 7 ++ runs 1 3) (by decide +kernel)
  rw [Bool.and_eq_true] at shows
  exact ⟨system, reached, shows⟩

/-- A process dies with the lock, and another one takes it over and increments the index; a third one
that looks at the lock then does not hold it. -/
theorem index_lock_exclusive_recovered :
    ∃ system task other, Transition.Reaches (step Task.begin advance)
        (fun system event => Timely system event ∧ KeepsLock system event) ⟨.create 0, []⟩ system ∧
      system.tasks[1]? = some task ∧ task.holder.isSome = true ∧
      system.tasks[2]? = some other ∧ other.seen.isSome = true ∧ other.holder = none ∧
      system.shared.index = 1 ∧ replay 0 system.shared.log = some system.shared.index := by
  obtain ⟨system, reached, shows⟩ := Transition.exists_reaches (step Task.begin advance)
    (fun system event => Timely system event ∧ KeepsLock system event) ⟨.create 0, []⟩
    (fun system => (system.tasks[1]?).any (·.holder.isSome) && (system.tasks[2]?).any (·.seen.isSome) &&
      system.shared.index == 1)
    ([.spawn increment, .spawn increment, .spawn increment] ++ runs 0 4 ++ [.advance 0 ⟨0, .crashes⟩] ++
      runs 1 3 ++ [.advance 1 ⟨lockStaleMs + 1, .succeeds⟩] ++ runs 1 7 ++ runs 2 3) (by decide +kernel)
  simp only [Bool.and_eq_true, Option.any_eq_true, beq_iff_eq] at shows
  obtain ⟨⟨⟨task, found, holds⟩, other, there, sees⟩, index⟩ := shows
  obtain ⟨alone, replayed⟩ := index_lock_exclusive 0 reached
  refine ⟨system, task, other, reached, found, holds, there, sees, ?_, index, replayed⟩
  exact (alone 1 2 task other (by decide) found there).resolve_left (Option.isSome_iff_ne_none.mp holds)

end OmegaEdit.Timeline.IndexLock
