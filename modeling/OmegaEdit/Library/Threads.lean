import OmegaEdit.Library.Transition

/-! Tasks that share a state and are advanced one at a time, in any order. A step of one
task may change the shared state under all others, so an invariant is in three parts: what
holds of the whole system, of each task, and of any two tasks. -/
namespace Threads
universe u v w x
variable {σ : Type u} {τ : Type v} {κ : Type w} {α : Type x}

structure System (σ : Type u) (τ : Type v) where
  shared : σ
  tasks : List τ

/-- A call begins, or the task at an index takes its next step with some outcome. -/
inductive Event (κ : Type w) (α : Type x) where
  | spawn (call : κ)
  | advance (index : Nat) (outcome : α)
deriving DecidableEq, Repr

/-- An event, if the task that it is about can take a step. -/
def step (spawn : κ → τ) (advance : σ → τ → α → Option (σ × τ)) (system : System σ τ) :
    Event κ α → Except Unit (System σ τ × Unit)
  | .spawn call => .ok (⟨system.shared, system.tasks ++ [spawn call]⟩, ())
  | .advance index outcome =>
    match system.tasks[index]? with
    | none => .error ()
    | some task =>
      match advance system.shared task outcome with
      | none => .error ()
      | some (shared, moved) => .ok (⟨shared, system.tasks.set index moved⟩, ())

/-- What holds of the whole system, of each task and of any two tasks. -/
structure Holds (I : System σ τ → Prop) (J : σ → τ → Prop) (K : τ → τ → Prop)
    (system : System σ τ) : Prop where
  whole : I system
  each : ∀ (index : Nat) task, system.tasks[index]? = some task → J system.shared task
  pair : ∀ (first second : Nat) task other, first ≠ second → system.tasks[first]? = some task →
    system.tasks[second]? = some other → K task other

/-- What a step of the task at an index has to leave of that: for the whole system, for the task that has
moved on, and for each other one. -/
structure Keeps (I : System σ τ → Prop) (J : σ → τ → Prop) (K : τ → τ → Prop) (system : System σ τ)
    (index : Nat) (shared : σ) (moved : τ) : Prop where
  whole : I ⟨shared, system.tasks.set index moved⟩
  own : J shared moved
  others : ∀ (place : Nat) other, place ≠ index → system.tasks[place]? = some other →
    J shared other ∧ K moved other

variable {spawn : κ → τ} {advance : σ → τ → α → Option (σ × τ)} {system next : System σ τ}
  {I : System σ τ → Prop} {J : σ → τ → Prop} {K : τ → τ → Prop} {done : Unit} {index : Nat} {shared : σ}
  {task moved : τ}

lemma step_spawn {call : κ} (stepped : step spawn advance system (.spawn call) = .ok (next, done)) :
    next = ⟨system.shared, system.tasks ++ [spawn call]⟩ := by
  cases stepped
  rfl

lemma step_advance {outcome : α}
    (stepped : step spawn advance system (.advance index outcome) = .ok (next, done)) :
    ∃ task shared moved, system.tasks[index]? = some task ∧
      advance system.shared task outcome = some (shared, moved) ∧
      next = ⟨shared, system.tasks.set index moved⟩ := by
  rw [step] at stepped
  split at stepped
  · cases stepped
  · rename_i task found
    split at stepped
    · cases stepped
    · rename_i shared moved advanced
      cases stepped
      exact ⟨task, shared, moved, found, advanced, rfl⟩

lemma getElem?_snoc {tasks : List τ} {added : τ}
    (found : (tasks ++ [added])[index]? = some task) :
    tasks[index]? = some task ∨ index = tasks.length ∧ task = added := by
  rcases lt_or_ge index tasks.length with inside | outside
  · left
    rwa [List.getElem?_append_left inside] at found
  · right
    rw [List.getElem?_append_right outside] at found
    obtain ⟨bound, same⟩ := List.getElem?_eq_some_iff.mp found
    have last : index = tasks.length := by
      rw [List.length_singleton] at bound
      omega
    subst last
    simp at same
    exact ⟨rfl, same.symm⟩

lemma getElem?_set {tasks : List τ} {place : Nat}
    (found : (tasks.set index moved)[place]? = some task) :
    place ≠ index ∧ tasks[place]? = some task ∨ place = index ∧ task = moved := by
  rcases eq_or_ne place index with rfl | other
  · right
    rw [List.getElem?_set_self'] at found
    obtain ⟨_, _, same⟩ := Option.map_eq_some_iff.mp found
    exact ⟨rfl, same.symm⟩
  · left
    rw [List.getElem?_set_ne (Ne.symm other)] at found
    exact ⟨other, found⟩

lemma Holds.empty (kept : I ⟨shared, []⟩) : Holds I J K ⟨shared, []⟩ := ⟨kept, nofun, nofun⟩

/-- A new task may join if it agrees with all others. -/
lemma Holds.spawned (holds : Holds I J K system) (symm : ∀ {task other}, K task other → K other task)
    {added : τ} (kept : I ⟨system.shared, system.tasks ++ [added]⟩) (own : J system.shared added)
    (others : ∀ other ∈ system.tasks, K added other) :
    Holds I J K ⟨system.shared, system.tasks ++ [added]⟩ := by
  refine ⟨kept, ?_, ?_⟩
  · intro index task found
    rcases getElem?_snoc found with old | ⟨-, rfl⟩
    · exact holds.each index task old
    · exact own
  · intro first second task other apart foundFirst foundSecond
    rcases getElem?_snoc foundFirst with old | ⟨rfl, rfl⟩
    · rcases getElem?_snoc foundSecond with old' | ⟨rfl, rfl⟩
      · exact holds.pair first second task other apart old old'
      · exact symm (others task (List.mem_of_getElem? old))
    · rcases getElem?_snoc foundSecond with old' | ⟨same, -⟩
      · exact others other (List.mem_of_getElem? old')
      · exact absurd same.symm apart

/-- The other tasks are those that hold together with the one that moves. -/
lemma Holds.keeps (holds : Holds I J K system) (found : system.tasks[index]? = some task)
    (whole : I ⟨shared, system.tasks.set index moved⟩) (own : J shared moved)
    (others : ∀ other ∈ system.tasks, J system.shared other → K task other →
      J shared other ∧ K moved other) : Keeps I J K system index shared moved where
  whole := whole
  own := own
  others place other elsewhere there := others other (List.mem_of_getElem? there)
    (holds.each place other there) (holds.pair index place task other elsewhere.symm found there)

lemma Holds.advanced (holds : Holds I J K system) (symm : ∀ {task other}, K task other → K other task)
    (keeps : Keeps I J K system index shared moved) :
    Holds I J K ⟨shared, system.tasks.set index moved⟩ := by
  obtain ⟨kept, own, others⟩ := keeps
  refine ⟨kept, ?_, ?_⟩
  · intro place task found
    rcases getElem?_set found with ⟨other, old⟩ | ⟨-, rfl⟩
    · exact (others place task other old).1
    · exact own
  · intro first second task other apart foundFirst foundSecond
    rcases getElem?_set foundFirst with ⟨otherFirst, old⟩ | ⟨rfl, rfl⟩
    · rcases getElem?_set foundSecond with ⟨-, old'⟩ | ⟨rfl, rfl⟩
      · exact holds.pair first second task other apart old old'
      · exact symm (others first task otherFirst old).2
    · rcases getElem?_set foundSecond with ⟨otherSecond, old'⟩ | ⟨same, -⟩
      · exact (others second other otherSecond old').2
      · exact absurd same.symm apart

/-- What holds at the start and of new tasks, and is kept by every allowed step of a task, holds in
every system reached. -/
theorem Holds.reached {allowed : System σ τ → Event κ α → Prop} {start : System σ τ}
    (reaches : Transition.Reaches (step spawn advance) allowed start system)
    (symm : ∀ {task other}, K task other → K other task) (initial : Holds I J K start)
    (spawned : ∀ system call, Holds I J K system → allowed system (.spawn call) →
      I ⟨system.shared, system.tasks ++ [spawn call]⟩ ∧ J system.shared (spawn call) ∧
        ∀ other ∈ system.tasks, K (spawn call) other)
    (advanced : ∀ system index outcome task shared moved, Holds I J K system →
      allowed system (.advance index outcome) → system.tasks[index]? = some task →
      advance system.shared task outcome = some (shared, moved) →
      Keeps I J K system index shared moved) : Holds I J K system := by
  refine reaches.invariant initial fun system next event _ holds permitted stepped => ?_
  cases event with
  | spawn call =>
    obtain ⟨kept, own, others⟩ := spawned system call holds permitted
    rw [step_spawn stepped]
    exact holds.spawned symm kept own others
  | advance index outcome =>
    obtain ⟨task, shared, moved, found, ran, rfl⟩ := step_advance stepped
    exact holds.advanced symm (advanced system index outcome task shared moved holds permitted found ran)

end Threads
