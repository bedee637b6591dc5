import Mathlib.Data.Finset.Max
import OmegaEdit.Library.Threads

/-! Tasks that take locks. What a task holds and what it waits for is read off where it is in
its code; a step of a task takes the lock that it waits for, or runs a part of its body, which
may give up locks but takes none. Tasks cannot block each other for ever if every one waits for
a lock that ranks above those it holds. -/
namespace Locks
open Threads
universe u v w x
variable {σ : Type u} {τ : Type v} {α : Type w} {ℓ : Type x}

/-- How tasks use locks. -/
structure Discipline (σ : Type u) (τ : Type v) (α : Type w) (ℓ : Type x) where
  holds : τ → List ℓ
  waits : τ → Option ℓ
  acquired : τ → τ
  body : σ → τ → α → Option (σ × τ)
  holds_acquired : ∀ task lock, waits task = some lock → holds (acquired task) = lock :: holds task
  holds_body : ∀ data task outcome next moved, waits task = none →
    body data task outcome = some (next, moved) → holds moved ⊆ holds task

/-- The data that tasks share, and which locks are taken. -/
structure Shared (σ : Type u) (ℓ : Type x) where
  data : σ
  locked : ℓ → Bool

def Shared.start (data : σ) : Shared σ ℓ := ⟨data, fun _ => false⟩

/-- The locks that are taken when a task goes on. -/
def relock [DecidableEq ℓ] (locked : ℓ → Bool) (before after : List ℓ) (lock : ℓ) : Bool :=
  lock ∈ after || (locked lock && lock ∉ before)

def Discipline.advance [DecidableEq ℓ] (discipline : Discipline σ τ α ℓ) (shared : Shared σ ℓ) (task : τ)
    (outcome : α) : Option (Shared σ ℓ × τ) :=
  match discipline.waits task with
  | some lock =>
    if shared.locked lock then none
    else
      let moved := discipline.acquired task
      some (⟨shared.data, relock shared.locked (discipline.holds task) (discipline.holds moved)⟩, moved)
  | none =>
    match discipline.body shared.data task outcome with
    | none => none
    | some (data, moved) =>
      some (⟨data, relock shared.locked (discipline.holds task) (discipline.holds moved)⟩, moved)

/-- Tasks that each wait for a lock that another one of them holds. -/
def Deadlock (holds : τ → List ℓ) (waits : τ → Option ℓ) (tasks : List τ) : Prop :=
  ∃ members : Finset Nat, members.Nonempty ∧ ∀ member ∈ members,
    ∃ task lock, tasks[member]? = some task ∧ waits task = some lock ∧
      ∃ holder ∈ members, holder ≠ member ∧ ∃ other, tasks[holder]? = some other ∧ lock ∈ holds other

/-- A lock that ranks highest among those waited for would have a holder that waits for a higher one. -/
theorem not_deadlock {holds : τ → List ℓ} {waits : τ → Option ℓ} {tasks : List τ} (rank : ℓ → Nat)
    (ordered : ∀ task ∈ tasks, ∀ lock, waits task = some lock → ∀ held ∈ holds task, rank held < rank lock) :
    ¬ Deadlock holds waits tasks := by
  rintro ⟨members, nonempty, blocked⟩
  obtain ⟨highest, inside, maximal⟩ := members.exists_max_image
    (fun member => ((tasks[member]?.bind waits).map rank).getD 0) nonempty
  obtain ⟨task, lock, found, waiting, holder, insideHolder, -, other, foundOther, held⟩ := blocked highest inside
  obtain ⟨_, next, foundAgain, waitingNext, -⟩ := blocked holder insideHolder
  cases foundOther.symm.trans foundAgain
  have above : rank lock < rank next :=
    ordered other (List.mem_of_getElem? foundOther) next waitingNext lock held
  have below := maximal holder insideHolder
  rw [found, foundOther, Option.bind_some, Option.bind_some, waiting, waitingNext] at below
  exact absurd above (not_lt.mpr below)

/-- Locks that tasks hold are taken. -/
def Taken (holds : τ → List ℓ) (system : System (Shared σ ℓ) τ) : Prop :=
  ∀ (place : Nat) task, system.tasks[place]? = some task → ∀ lock ∈ holds task, system.shared.locked lock = true

/-- Two tasks hold different locks. -/
def Separate (holds : τ → List ℓ) (task other : τ) : Prop := ∀ lock ∈ holds task, lock ∉ holds other

lemma Separate.symm {holds : τ → List ℓ} {task other : τ} (apart : Separate holds task other) : Separate holds other task :=
  fun lock held heldOther => apart lock heldOther held

section Exclusion
variable [DecidableEq ℓ] {discipline : Discipline σ τ α ℓ} {shared next : Shared σ ℓ} {task moved other : τ}
  {outcome : α} {lock : ℓ}

/-- A step takes the lock that the task waits for and leaves the data, or it runs its body. -/
lemma advance_cases (ran : discipline.advance shared task outcome = some (next, moved)) :
    next.locked = relock shared.locked (discipline.holds task) (discipline.holds moved) ∧
    ((∃ lock, discipline.waits task = some lock ∧ shared.locked lock = false ∧
        next.data = shared.data ∧ moved = discipline.acquired task) ∨
      discipline.waits task = none ∧ discipline.body shared.data task outcome = some (next.data, moved)) := by
  rw [Discipline.advance] at ran
  split at ran
  · rename_i lock waiting
    split at ran
    · cases ran
    · rename_i free
      cases ran
      exact ⟨rfl, .inl ⟨lock, waiting, Bool.not_eq_true _ ▸ free, rfl, rfl⟩⟩
  · rename_i free
    split at ran
    · cases ran
    · rename_i data successor body
      cases ran
      exact ⟨rfl, .inr ⟨free, body⟩⟩

/-- A task that goes on holds no lock that another one holds. -/
lemma separate_advance (ran : discipline.advance shared task outcome = some (next, moved))
    (apart : Separate discipline.holds task other)
    (taken : ∀ lock ∈ discipline.holds other, shared.locked lock = true) :
    Separate discipline.holds moved other := by
  intro lock held heldOther
  rcases (advance_cases ran).2 with ⟨own, waiting, free, -, rfl⟩ | ⟨free, body⟩
  · rw [discipline.holds_acquired task own waiting] at held
    rcases List.mem_cons.mp held with rfl | before
    · rw [taken lock heldOther] at free
      cases free
    · exact apart lock before heldOther
  · exact apart lock (discipline.holds_body _ task outcome _ moved free body held) heldOther

lemma taken_advance {system : System (Shared σ ℓ) τ} {index : Nat} (taken : Taken discipline.holds system)
    (apart : ∀ (place : Nat) other, place ≠ index → system.tasks[place]? = some other →
      Separate discipline.holds task other)
    (ran : discipline.advance system.shared task outcome = some (next, moved)) :
    Taken discipline.holds ⟨next, system.tasks.set index moved⟩ := by
  intro place other there lock held
  rw [(advance_cases ran).1, relock, Bool.or_eq_true_iff, decide_eq_true_eq]
  rcases getElem?_set there with ⟨elsewhere, old⟩ | ⟨rfl, rfl⟩
  · right
    rw [Bool.and_eq_true_iff, decide_eq_true_eq]
    exact ⟨taken place other old lock held, (apart place other elsewhere old).symm lock held⟩
  · exact .inl held

end Exclusion

end Locks
