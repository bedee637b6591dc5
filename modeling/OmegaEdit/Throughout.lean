import OmegaEdit.Moves

/-! Facts about the immutable part of a change. A change keeps its kind, range and
payloads for as long as it exists, whichever list it is in, so a fact about these
that holds of every new change holds of every change of every state. -/
namespace OmegaEdit

mutual

/-- The change and every undone change it carries. -/
def Change.Throughout (Q : Change → Prop) : Change → Prop
  | ⟨serial, start, offset, length, data, inverseData, kind, bit, transformData, preserved⟩ =>
    Q ⟨serial, start, offset, length, data, inverseData, kind, bit, transformData, preserved⟩ ∧
      ThroughoutAll Q preserved

def ThroughoutAll (Q : Change → Prop) : List Change → Prop
  | [] => True
  | change :: rest => change.Throughout Q ∧ ThroughoutAll Q rest

end

/-- A fact that does not look at the serials and the carried changes. -/
def Intrinsic (Q : Change → Prop) : Prop :=
  ∀ (change : Change) (serial start : Int) (preserved : List Change), Q change → Q { change with
      serial := serial, transactionStartSerial := start, preservedChangesUndone := preserved }

variable {Q : Change → Prop}

lemma throughoutAll_iff {changes : List Change} :
    ThroughoutAll Q changes ↔ ∀ change ∈ changes, change.Throughout Q := by
  induction changes with
  | nil => simp [ThroughoutAll]
  | cons change rest ih => simp [ThroughoutAll, ih]

namespace Change

lemma throughout_iff {change : Change} :
    change.Throughout Q ↔ Q change ∧ ∀ other ∈ change.preservedChangesUndone, other.Throughout Q := by
  rw [← throughoutAll_iff]
  cases change
  simp [Throughout]

lemma Throughout.relabel {change : Change} (throughout : change.Throughout Q) (intrinsic : Intrinsic Q)
    (serial start : Int) {preserved : List Change}
    (kept : ∀ other ∈ preserved, other.Throughout Q) :
    Throughout Q { change with
      serial := serial, transactionStartSerial := start, preservedChangesUndone := preserved } := by
  obtain ⟨holds, _⟩ := throughout_iff.mp throughout
  exact throughout_iff.mpr ⟨intrinsic change serial start preserved holds, kept⟩

lemma Throughout.preserved {change : Change} (throughout : change.Throughout Q) :
    ∀ other ∈ change.preservedChangesUndone, other.Throughout Q :=
  (throughout_iff.mp throughout).2

lemma Throughout.negate {change : Change} (throughout : change.Throughout Q)
    (intrinsic : Intrinsic Q) : change.negate.Throughout Q :=
  throughout.relabel intrinsic _ _ throughout.preserved

lemma Throughout.startingAt {change : Change} (throughout : change.Throughout Q)
    (intrinsic : Intrinsic Q) (start : Int) : (change.startingAt start).Throughout Q :=
  throughout.relabel intrinsic _ _ throughout.preserved

end Change

/-- Every change of the model, active or undone. -/
structure Model.Throughout (Q : Change → Prop) (model : Model) : Prop where
  active : ∀ change ∈ model.changes, change.Throughout Q
  undone : ∀ change ∈ model.changesUndone, change.Throughout Q

/-- A fact about the immutable part of a change that every new change has. -/
structure Lasting (Q : Change → Prop) : Prop where
  intrinsic : Intrinsic Q
  new : ∀ {model change}, NewChange model change → Q change
  newTransform : ∀ {model file size change}, NewTransform model file size change → Q change

/-- What every new change has, all changes keep. -/
theorem throughout_kept (lasting : Lasting Q) :
    Kept (Model.Throughout Q) (Change.Throughout Q) (Change.Throughout Q) where
  iff := ⟨fun throughout => ⟨throughout.active, throughout.undone⟩, fun both => ⟨both.1, both.2⟩⟩
  new recorded := by
    refine Change.throughout_iff.mpr ⟨lasting.new recorded, ?_⟩
    rw [recorded.preserved]
    simp
  newTransform recorded := by
    refine Change.throughout_iff.mpr ⟨lasting.newTransform recorded, ?_⟩
    rw [recorded.preserved]
    simp
  negate throughout := throughout.negate lasting.intrinsic
  restore throughout := throughout.negate lasting.intrinsic
  active start throughout := throughout.startingAt lasting.intrinsic start
  undone start throughout := throughout.startingAt lasting.intrinsic start
  holding throughout undone := throughout.relabel lasting.intrinsic _ _ undone
  released throughout := throughout.relabel lasting.intrinsic _ _ (by simp)
  carried throughout := throughout.preserved

end OmegaEdit
