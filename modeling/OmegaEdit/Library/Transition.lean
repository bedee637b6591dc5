import Mathlib.Data.Nat.Basic
import Mathlib.Tactic.Common

/-! Systems whose steps may fail. A failed step has no successor, so a run is a
list of steps that succeeded; what is allowed at a step may depend on the state
it is taken in. -/
namespace Transition
universe u v w x
variable {ε : Type u} {σ : Type v} {ι : Type w} {ρ : Type x}

lemma bind_eq_ok {α β : Type v} {first : Except ε α} {next : α → Except ε β} {result : β} :
    (first >>= next) = .ok result ↔ ∃ value, first = .ok value ∧ next value = .ok result := by
  cases first with
  | error fault | ok value => simp [bind, Except.bind]

/-- The states reached from `start` by steps that are allowed where they are taken. -/
inductive Reaches (step : σ → ι → Except ε (σ × ρ)) (allowed : σ → ι → Prop) (start : σ) :
    σ → Prop where
  | refl : Reaches step allowed start start
  | step {state next : σ} {call : ι} {result : ρ} (reached : Reaches step allowed start state)
      (permitted : allowed state call) (stepped : step state call = .ok (next, result)) :
      Reaches step allowed start next

namespace Reaches
variable {step : σ → ι → Except ε (σ × ρ)} {allowed : σ → ι → Prop} {start state : σ}

/-- What holds at the start and is kept by every allowed step holds in every state reached. -/
theorem invariant {P : σ → Prop} (reached : Reaches step allowed start state) (initial : P start)
    (preserved : ∀ state next call result, P state → allowed state call →
      step state call = .ok (next, result) → P next) : P state := by
  induction reached with
  | refl => exact initial
  | step reached permitted stepped ih => exact preserved _ _ _ _ ih permitted stepped

theorem trans {middle : σ} (first : Reaches step allowed start middle)
    (second : Reaches step allowed middle state) : Reaches step allowed start state := by
  induction second with
  | refl => exact first
  | step _ permitted stepped ih => exact ih.step permitted stepped

end Reaches

section Schedules
variable {step : σ → ι → Except ε (σ × ρ)} {allowed : σ → ι → Prop}
  [∀ state call, Decidable (allowed state call)] {start : σ}

/-- The state after a list of steps, if each of them is allowed and succeeds. -/
def run (step : σ → ι → Except ε (σ × ρ)) (allowed : σ → ι → Prop)
    [∀ state call, Decidable (allowed state call)] : σ → List ι → Option σ
  | state, [] => some state
  | state, call :: calls =>
    if allowed state call then
      match step state call with
      | .error _ => none
      | .ok (next, _) => run step allowed next calls
    else none

lemma Reaches.run {state final : σ} {calls : List ι} (reached : Reaches step allowed start state)
    (ran : run step allowed state calls = some final) : Reaches step allowed start final := by
  induction calls generalizing state with
  | nil =>
    cases ran
    exact reached
  | cons call calls ih =>
    rw [Transition.run] at ran
    split at ran
    · rename_i permitted
      split at ran
      · cases ran
      · rename_i next result stepped
        exact ih (.step reached permitted stepped) ran
    · cases ran

/-- A schedule that can be run shows a state that is reached. -/
theorem exists_reaches (step : σ → ι → Except ε (σ × ρ)) (allowed : σ → ι → Prop)
    [∀ state call, Decidable (allowed state call)] (start : σ) (p : σ → Bool) (calls : List ι)
    (shows : (Transition.run step allowed start calls).any p = true) :
    ∃ state, Reaches step allowed start state ∧ p state = true := by
  cases ran : Transition.run step allowed start calls with
  | none =>
    rw [ran] at shows
    cases shows
  | some state =>
    rw [ran] at shows
    exact ⟨state, .run .refl ran, shows⟩

end Schedules

end Transition
