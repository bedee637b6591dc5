import OmegaEdit.Api
import Mathlib.Data.List.Forall2

/-! How models are moved. Moving models between the active stack and the future, for
undo, redo or a checkout, keeps the order of the history. -/
namespace OmegaEdit

namespace ModelStack
variable {below future : List Model} {top : Model} {count : Nat}

lemma order_rewindTo : (rewindTo below top future count).order =
    (⟨below, top, future⟩ : ModelStack).order := by
  induction below generalizing top future with
  | nil => rfl
  | cons previous below ih =>
    rw [rewindTo]
    split
    · rw [ih]
      simp [order, models]
    · rfl

lemma order_advanceTo : (advanceTo below top future count).order =
    (⟨below, top, future⟩ : ModelStack).order := by
  induction future generalizing below top with
  | nil => rfl
  | cons next future ih =>
    rw [advanceTo]
    split
    · rw [ih]
      simp [order, models]
    · rfl

variable (stack : ModelStack)

/-- Moving models keeps the order of the history. -/
@[simp] lemma order_moveTo (count : Nat) : (stack.moveTo count).order = stack.order := by
  unfold moveTo
  split
  · exact order_rewindTo
  · exact order_advanceTo

@[simp] lemma order_suspendModels (below : List Model) (top : Model) (future : List Model) :
    (suspendModels below top future).1.order = (⟨below, top, future⟩ : ModelStack).order := by
  induction below generalizing top future with
  | nil => rfl
  | cons previous below ih =>
    rw [suspendModels]
    split
    · dsimp only
      rw [ih]
      simp [order, models]
    · rfl

lemma restoreSuspended_succ (count : Nat) (stack : ModelStack) :
    restoreSuspendedCheckpointModels (count + 1) stack =
      restoreSuspendedCheckpointModels 1 (restoreSuspendedCheckpointModels count stack) := by
  induction count generalizing stack with
  | zero => rfl
  | succ count ih =>
    rw [restoreSuspendedCheckpointModels, restoreSuspendedCheckpointModels.eq_2 stack count]
    cases future : stack.future with
    | nil =>
      dsimp only
      rw [restoreSuspendedCheckpointModels, future]
    | cons next rest =>
      dsimp only
      rw [ih]

/-- Bringing the models back that were set aside undoes it, up to a change of the model that was
exposed. -/
lemma restoreSuspended_suspendModels {R : Model → Model → Prop} (refl : ∀ model, R model model)
    (below : List Model) (top : Model) (future : List Model) {exposed : Model}
    (related : R (suspendModels below top future).1.top exposed) :
    ∃ newTop newBelow, restoreSuspendedCheckpointModels (suspendModels below top future).2
        { (suspendModels below top future).1 with top := exposed } = ⟨newBelow, newTop, future⟩ ∧
      List.Forall₂ R (top :: below) (newTop :: newBelow) := by
  induction below generalizing top future with
  | nil => exact ⟨exposed, [], rfl, .cons related .nil⟩
  | cons previous below ih =>
    rw [suspendModels] at related ⊢
    split at related
    · rename_i isEmpty
      rw [if_pos isEmpty]
      obtain ⟨newTop, newBelow, restored, models⟩ := ih previous (top :: future) related
      refine ⟨top, newTop :: newBelow, ?_, .cons (refl top) models⟩
      dsimp only
      rw [restoreSuspended_succ, restored]
      rfl
    · rename_i nonempty
      rw [if_neg nonempty]
      exact ⟨exposed, previous :: below, rfl,
        .cons related (List.forall₂_same.mpr (fun model _ => refl model))⟩

/-- Bringing all models back that were set aside undoes it. -/
lemma restoreSuspended_suspend (stack : ModelStack) :
    restoreSuspendedCheckpointModels stack.suspendPlainCheckpointModelsForUndo.2
      stack.suspendPlainCheckpointModelsForUndo.1 = stack := by
  obtain ⟨top, below, restored, models⟩ := restoreSuspended_suspendModels (R := Eq)
    (fun _ => rfl) stack.below stack.top stack.future rfl
  rw [List.forall₂_eq_eq_eq] at models
  cases models
  exact restored

@[simp] lemma order_resumeModels (below : List Model) (top : Model) (future : List Model) :
    (resumeModels below top future).order = (⟨below, top, future⟩ : ModelStack).order := by
  induction future generalizing below top with
  | nil => rfl
  | cons next future ih =>
    rw [resumeModels]
    split
    · rfl
    · rw [ih]
      simp [order, models]

end ModelStack

end OmegaEdit
