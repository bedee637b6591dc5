import Mathlib.Tactic.Common

/-! Computations that change a state and may fail in the middle, and that keep the state they
failed in: nothing is undone by a failure. A specification says what holds when a computation
succeeds and what holds when it fails; the rules below follow the ways computations are built. -/
namespace Effects
universe u
variable {ε σ α β : Type u}

/-- From a state with `pre`, success leaves `post` and failure leaves `failed`. -/
def Spec (pre : σ → Prop) (action : EStateM ε σ α) (post : α → σ → Prop)
    (failed : ε → σ → Prop) : Prop :=
  ∀ state, pre state → match action.run state with
    | .ok value next => post value next
    | .error fault next => failed fault next

variable {pre : σ → Prop} {post : α → σ → Prop} {failed : ε → σ → Prop}

namespace Spec

lemma returns {value : α} (holds : ∀ state, pre state → post value state) :
    Spec pre (pure value : EStateM ε σ α) post failed :=
  holds

lemma throws {fault : ε} (holds : ∀ state, pre state → failed fault state) :
    Spec pre (throw fault : EStateM ε σ α) post failed :=
  holds

lemma weaken {weaker : σ → Prop} {stronger : α → σ → Prop} {failure : ε → σ → Prop}
    {action : EStateM ε σ α} (spec : Spec weaker action stronger failure)
    (before : ∀ state, pre state → weaker state)
    (after : ∀ value state, stronger value state → post value state)
    (fails : ∀ fault state, failure fault state → failed fault state) :
    Spec pre action post failed := by
  intro state holds
  have ended := spec state (before state holds)
  cases outcome : action.run state with
  | ok value next =>
    rw [outcome] at ended
    exact after value next ended
  | error fault next =>
    rw [outcome] at ended
    exact fails fault next ended

lemma given {fact : Prop} {action : EStateM ε σ α} (spec : fact → Spec pre action post failed) :
    Spec (fun state => fact ∧ pre state) action post failed :=
  fun state holds => spec holds.1 state holds.2

lemma chosen {ι : Type*} {family : ι → σ → Prop} {action : EStateM ε σ α}
    (spec : ∀ index, Spec (family index) action post failed) :
    Spec (fun state => ∃ index, family index state) action post failed :=
  fun state ⟨index, holds⟩ => spec index state holds

lemma updates {change : σ → σ} {ended : σ → Prop}
    (holds : ∀ state, pre state → ended (change state)) :
    Spec pre (modify change : EStateM ε σ PUnit) (fun _ => ended) failed :=
  holds

lemma reads (failed : ε → σ → Prop) :
    Spec pre (get : EStateM ε σ σ) (fun value state => value = state ∧ pre state) failed :=
  fun _ holds => ⟨rfl, holds⟩

lemma lifts {outcome : Except ε α} (succeeds : ∀ value, outcome = .ok value →
      ∀ state, pre state → post value state)
    (fails : ∀ fault state, pre state → failed fault state) :
    Spec pre (MonadExcept.ofExcept outcome : EStateM ε σ α) post failed := by
  cases outcome with
  | ok value => exact returns (succeeds value rfl)
  | error fault => exact throws (fails fault)

/-- One computation after the other; each of them may be the one that fails. -/
lemma andThen {middle : β → σ → Prop} {first : EStateM ε σ β} {next : β → EStateM ε σ α}
    (begins : Spec pre first middle failed)
    (goes : ∀ value, Spec (middle value) (next value) post failed) :
    Spec pre (first >>= next) post failed := by
  intro state holds
  have begun := begins state holds
  simp only [EStateM.run] at begun ⊢
  simp only [bind, EStateM.bind]
  cases outcome : first state with
  | ok value reached =>
    rw [outcome] at begun
    exact goes value reached begun
  | error fault reached =>
    rw [outcome] at begun
    exact begun

lemma discards {ended : σ → Prop} {action : EStateM ε σ α}
    (spec : Spec pre action (fun _ => ended) failed) :
    Spec pre (discard action) (fun _ => ended) failed :=
  andThen spec fun _ => returns fun _ holds => holds

/-- The closing computation runs after a success and after a failure; its own failure wins. -/
lemma closing {middle : α → σ → Prop} {broken : ε → σ → Prop} {action : EStateM ε σ α}
    {final : EStateM ε σ β} (works : Spec pre action middle broken)
    (closes : ∀ value, Spec (middle value) final (fun _ => post value) failed)
    (mends : ∀ fault, Spec (broken fault) final (fun _ => failed fault) failed) :
    Spec pre (tryFinally action final) post failed := by
  intro state holds
  have worked := works state holds
  simp only [EStateM.run] at worked ⊢
  simp only [tryFinally, tryFinally', Functor.map, EStateM.map]
  cases outcome : action state with
  | ok value reached =>
    rw [outcome] at worked
    have closed := closes value reached worked
    simp only [EStateM.run] at closed
    cases closure : final reached with
    | ok _ next | error fault next =>
      simpa only [closure] using closed
  | error fault reached =>
    rw [outcome] at worked
    have closed := mends fault reached worked
    simp only [EStateM.run] at closed
    cases closure : final reached with
    | ok _ next | error other next =>
      simpa only [closure] using closed

lemma catching {broken : ε → σ → Prop} {action : EStateM ε σ α} {handler : ε → EStateM ε σ α}
    (works : Spec pre action post broken)
    (handles : ∀ fault, Spec (broken fault) (handler fault) post failed) :
    Spec pre (tryCatch action handler) post failed := by
  intro state holds
  have worked := works state holds
  simp only [EStateM.run] at worked ⊢
  simp only [tryCatch, tryCatchThe, MonadExceptOf.tryCatch, EStateM.tryCatch]
  cases outcome : action state with
  | ok value reached =>
    rw [outcome] at worked
    exact worked
  | error fault reached =>
    rw [outcome] at worked
    exact handles fault reached worked

/-- A loop over a list, with an invariant that knows which items are behind it. -/
lemma loop {ι : Type u} {invariant : List ι → σ → Prop} {body : ι → EStateM ε σ PUnit}
    (step : ∀ done item, Spec (invariant done) (body item)
      (fun _ => invariant (done ++ [item])) failed) (items : List ι) (done : List ι) :
    Spec (invariant done) (items.forM body) (fun _ => invariant (done ++ items)) failed := by
  induction items generalizing done with
  | nil =>
    rw [List.append_nil]
    exact returns fun state holds => holds
  | cons item rest ih =>
    refine andThen (step done item) fun _ => ?_
    have later := ih (done ++ [item])
    rw [List.append_assoc] at later
    exact later

end Spec
end Effects
