import OmegaEdit.Outcomes
import OmegaEdit.ReplaceAll

/-! Replacing one range by streaming the content around it into a new checkpoint file, as a plain
checkpoint or as a transform. Either way the content becomes what the splice makes of it. -/
namespace OmegaEdit
open Splice
variable {session : Session} {content : List Byte} {offset : Int}

lemma replacedFile_eq {model : Model} (denotes : model.HasContent content) {start deleted : Nat}
    (inside : start + deleted ≤ content.length) (bytes : List Byte) :
    replacedFile model start deleted bytes content.length =
      .ok (some (splice content start deleted bytes)) := by
  have small := denotes.length_le
  obtain ⟨cursor, begins, atStart⟩ := initializeSessionStreamCursor_stands denotes (Int.le_refl 0)
    (Int.natCast_nonneg content.length)
  obtain ⟨atRange, copied, front⟩ := streamExpecting_eq denotes
    (show cursor.Stands model (0 : Nat) from atStart) (Nat.zero_le start) (by omega)
    (by simp : (start : Int) = _) true
  obtain ⟨atEnd, passed, range⟩ := streamExpecting_eq denotes front
    (by omega : start ≤ start + deleted) inside (by omega : (deleted : Int) = _) false
  obtain ⟨_, behind, _⟩ := streamExpecting_eq denotes range inside (Nat.le_refl _)
    (by rw [range.1] : (content.length : Int) - atEnd.offset = _) true
  have deleteEnd : safeAdd (start : Int) deleted = some ((start + deleted : Nat) : Int) :=
    safeAdd_of_le (by omega) (by omega)
  simp only [replacedFile, begins, copied, deleteEnd, passed, behind, bind, Except.bind, if_true]
  have rest : content.length ≤ start + deleted + (content.length - (start + deleted)) := by omega
  rw [slice_to_end rest, slice, List.drop_zero, Nat.sub_zero]
  rfl

/-- A file that holds as many bytes as was counted on is promoted. Only a transform may fail. -/
lemma promoteReplacedBytes_cases (session : Session) (deleted inserted size : Int) {file : List Byte}
    (small : (file.length : Int) ≤ int64Max) (transformId optionsJson : List Byte) :
    ∃ next result, session.promoteReplacedBytes offset deleted inserted size file.length file
        transformId optionsJson = (next, result) ∧
      (transformId ≠ [] ∧ result = -1 ∧ next.stack = session.stack ∨
        0 ≤ result ∧ next.top.HasContent file) := by
  rw [Session.promoteReplacedBytes]
  split
  · obtain ⟨next, promoted, holds⟩ := promoteReplaced_eq session small 0
    rw [promoted]
    exact ⟨next, 0, rfl, .inr ⟨Int.le_refl 0, holds⟩⟩
  · next transform =>
    cases promoted : session.promoteNewTransform file offset deleted transformId optionsJson inserted size
        file.length with
    | mk after serial =>
      refine ⟨after, serial, rfl, ?_⟩
      rcases Session.promoteNewTransform_cases promoted with ⟨rfl, nextFile, rfl⟩ |
        ⟨checkpoint, change, nextFile, rfl, positive, _, _, rfl⟩
      · exact .inl ⟨transform, rfl, Session.marked_stack⟩
      · exact .inr ⟨Int.le_of_lt positive, denotes_initializeModelSegments small⟩

/-- A range that is replaced in a checkpoint file is replaced as a splice of the content. -/
theorem replaceBytesCheckpointed_splices {deleteLength insertLength : Int} {bytes : BytesPointer}
    {deleted : Nat} {file : List Byte} (transformId optionsJson : List Byte)
    (denotes : session.top.HasContent content) (running : session.changesPaused = false)
    (range : validNonnegativeRange offset deleteLength = true) (inside : offset ≤ content.length)
    (clipped : (deleted : Int) = min deleteLength (content.length - offset))
    (given : 0 ≤ insertLength ∧ (bytes.isNone → insertLength = 0))
    (spliced : splice content offset.toNat deleted (readPointer bytes insertLength) = file)
    (small : (file.length : Int) ≤ int64Max) : ∃ next result,
      session.replaceBytesCheckpointed offset deleteLength bytes insertLength transformId optionsJson =
        .ok (next, result) ∧
      (transformId ≠ [] ∧ result = -1 ∧ next.stack = session.stack ∨
        0 ≤ result ∧ next.top.HasContent file) := by
  obtain ⟨start, rfl⟩ := Int.eq_ofNat_of_zero_le (validNonnegativeRange_iff.mp range).1
  rw [Int.toNat_natCast] at spliced
  have within : start + deleted ≤ content.length := by omega
  have amount : ((readPointer bytes insertLength).length : Int) = insertLength := by
    cases bytes with
    | none => simp [readPointer, given.2 rfl]
    | some memory =>
      rw [readPointer, length_readMemory]
      omega
  have counted : content.length - deleted + insertLength = (file.length : Int) := by
    rw [← spliced, length_splice _ _ (by omega)]
    omega
  have sum : (safeAdd (content.length : Int) (-deleted)).bind (safeAdd · insertLength) =
      some (file.length : Int) := by
    rw [safeAdd_neg_of_le (by omega) (by omega), ← counted]
    exact safeAdd_of_le given.1 (by omega)
  have filled : ¬(bytes.isNone ∧ insertLength > 0) := by
    rintro ⟨none, positive⟩
    have := given.2 none
    omega
  have there : ¬((content.length : Int) < 0 ∨ start > (content.length : Int)) := by omega
  simp only [Session.replaceBytesCheckpointed, range, running, session.size_eq_length denotes,
    ← clipped, Bool.true_eq_false, false_or, if_neg (Int.not_lt.mpr given.1), if_neg filled,
    if_neg there, Bool.false_eq_true, if_false]
  split
  · next nothing =>
    obtain rfl : deleted = 0 := by omega
    have none : readPointer bytes insertLength = [] := List.eq_nil_of_length_eq_zero (by omega)
    have same : file = content := by simp [← spliced, none, splice]
    exact ⟨session, 0, rfl, .inr ⟨Int.le_refl 0, same ▸ denotes⟩⟩
  · simp only [sum, replacedFile_eq denotes within, spliced, utilFileSize_eq small, bind, Except.bind,
      ne_eq, not_true_eq_false, if_false]
    obtain ⟨next, result, promoted, outcome⟩ := promoteReplacedBytes_cases session deleted
      insertLength content.length small transformId optionsJson
    exact ⟨next, result, congrArg _ promoted, outcome⟩

theorem replaceBytesCheckpointed_splices_middle : ∃ next result,
    ababaSession.replaceBytesCheckpointed 1 9 none 0 [] [] = .ok (next, result) ∧
      next.top.HasContent [97] := by
  obtain ⟨next, result, done, ⟨transform, _⟩ | ⟨_, holds⟩⟩ := replaceBytesCheckpointed_splices [] []
    ababaSession_denotes rfl (by decide : validNonnegativeRange 1 9 = true) (by decide)
    (by decide : ((4 : Nat) : Int) = _) ⟨Int.le_refl 0, fun _ => rfl⟩
    (rfl : splice _ _ _ (readPointer none 0) = [97]) (by decide)
  · exact absurd rfl transform
  · exact ⟨next, result, done, holds⟩

end OmegaEdit
