import OmegaEdit.Refinement

/-! Replaces and scripts are built from primitive edits, the rollback by an undo,
and the transaction around them. What is closed under these is closed under
replaces and scripts; two sessions that answer these alike answer replaces and
scripts alike. -/
namespace OmegaEdit
open Transition (bind_eq_ok)

/-- A property kept by the calls that replaces and scripts are built from. -/
structure EditClosed (P : Session → Prop) : Prop where
  edit : ∀ {session next : Session} {result : Int} (edit : PrimitiveEdit), P session →
    session.step edit.call = .ok (next, result) → P next
  begins : ∀ {session : Session}, P session → P session.beginTransaction.1
  ends : ∀ {session : Session}, P session → P session.endTransaction.1
  undo : ∀ {session next : Session} {result : Int}, P session →
    session.undoLastChange = .ok (next, result) → P next

namespace EditClosed
variable {P : Session → Prop} {session next : Session} {result : Int}

lemma scopedTransaction (closed : EditClosed P) {body : Session → Except Fault (Session × Int)}
    (kept : ∀ {session next : Session} {result : Int}, P session →
      body session = .ok (next, result) → P next)
    (holds : P session) (done : session.scopedTransaction body = .ok (next, result)) : P next := by
  rw [Session.scopedTransaction] at done
  split at done
  · obtain ⟨⟨middle, answer⟩, ran, done⟩ := bind_eq_ok.mp done
    cases done
    exact closed.ends (kept (closed.begins holds) ran)
  · exact kept holds done

lemma replaceBytes (closed : EditClosed P) {offset deleteLength insertLength : Int}
    {bytes : BytesPointer} (holds : P session)
    (done : session.replaceBytes offset deleteLength bytes insertLength = .ok (next, result)) :
    P next := by
  rw [Session.replaceBytes] at done
  split at done
  · cases done
    exact holds
  split at done
  · cases done
    exact holds
  split at done
  · cases done
    exact holds
  split at done
  · exact closed.edit (.insert offset bytes insertLength) holds done
  split at done
  · exact closed.edit (.delete offset deleteLength) holds done
  split at done
  · exact closed.edit (.overwrite offset bytes insertLength) holds done
  refine closed.scopedTransaction ?_ holds done
  intro session next result holds done
  obtain ⟨⟨middle, deleteSerial⟩, deleted, done⟩ := bind_eq_ok.mp done
  have afterDelete := closed.edit (.delete offset deleteLength) holds deleted
  dsimp only at done
  split at done
  · cases done
    exact afterDelete
  obtain ⟨⟨last, insertSerial⟩, inserted, done⟩ := bind_eq_ok.mp done
  have afterInsert := closed.edit (.insert offset bytes insertLength) afterDelete inserted
  dsimp only at done
  split at done
  · obtain ⟨⟨rolled, undone⟩, undo, done⟩ := bind_eq_ok.mp done
    have afterUndo := closed.undo afterInsert undo
    dsimp only at done
    split at done
    · cases done
      exact afterUndo
    · cases done
      exact afterUndo
  · cases done
    exact afterInsert

lemma applyScriptOp (closed : EditClosed P) {op : Session.ScriptOp} (holds : P session)
    (done : session.applyScriptOp op = .ok (next, result)) : P next := by
  rw [Session.applyScriptOp] at done
  split at done
  · split at done
    · exact closed.edit (.delete op.offset op.length) holds done
    · cases done
      exact holds
  · split at done
    · exact closed.edit (.insert op.offset op.bytes op.bytesLength) holds done
    · cases done
      exact holds
  · split at done
    · cases done
      exact holds
    split at done
    · cases done
      exact holds
    dsimp only at done
    generalize (if op.bytesLength > 0 then op.bytesLength else op.length) = length at done
    split at done
    · exact closed.edit (.overwrite op.offset op.bytes length) holds done
    · cases done
      exact holds
  · exact closed.replaceBytes holds done

lemma applyScriptOps (closed : EditClosed P) {ops : List Session.ScriptOp} (holds : P session)
    (done : Session.applyScriptOps ops session = .ok (next, result)) : P next := by
  induction ops generalizing session with
  | nil =>
    cases done
    exact holds
  | cons op rest ih =>
    rw [Session.applyScriptOps] at done
    obtain ⟨⟨middle, serial⟩, applied, done⟩ := bind_eq_ok.mp done
    have after := closed.applyScriptOp holds applied
    dsimp only at done
    split at done
    · cases done
      exact after
    split at done
    · cases done
      exact after
    · exact ih after done

lemma applyScript (closed : EditClosed P) {ops : List Session.ScriptOp} (holds : P session)
    (done : session.applyScript ops = .ok (next, result)) : P next := by
  rw [Session.applyScript] at done
  split at done
  · cases done
    exact holds
  · exact closed.scopedTransaction (fun holds done => closed.applyScriptOps holds done) holds done

end EditClosed

/-- Two runs of a call give the same answer and sessions that are again related. -/
def Together (R : Session → Session → Prop) (left right : Except Fault (Session × Int)) : Prop :=
  ∃ leftNext rightNext result, left = .ok (leftNext, result) ∧ right = .ok (rightNext, result) ∧
    R leftNext rightNext

/-- A relation kept by the calls that replaces are built from, none of which fails inside. -/
structure EditSimulation (R : Session → Session → Prop) : Prop where
  edit : ∀ {left right : Session} (edit : PrimitiveEdit), R left right →
    Together R (left.step edit.call) (right.step edit.call)
  state : ∀ {left right : Session}, R left right → left.transactionState = right.transactionState
  begins : ∀ {left right : Session}, R left right →
    R left.beginTransaction.1 right.beginTransaction.1
  ends : ∀ {left right : Session}, R left right → R left.endTransaction.1 right.endTransaction.1
  undo : ∀ {left right : Session}, R left right →
    Together R left.undoLastChange right.undoLastChange

namespace Together
variable {R : Session → Session → Prop} {left right : Session}

lemma pure (related : R left right) (result : Int) :
    Together R (.ok (left, result)) (.ok (right, result)) :=
  ⟨left, right, result, rfl, rfl, related⟩

lemma bind {first second : Except Fault (Session × Int)}
    {next : Session × Int → Except Fault (Session × Int)} (run : Together R first second)
    (continues : ∀ {left right : Session} (result : Int), R left right →
      Together R (next (left, result)) (next (right, result))) :
    Together R (first >>= next) (second >>= next) := by
  obtain ⟨leftNext, rightNext, result, firstRun, secondRun, related⟩ := run
  rw [firstRun, secondRun]
  exact continues result related

lemma and {P : Session → Prop} {first second : Except Fault (Session × Int)}
    (run : Together R first second) (kept : ∀ {next result}, first = .ok (next, result) → P next) :
    Together (fun left right => R left right ∧ P left) first second := by
  obtain ⟨leftNext, rightNext, result, leftRun, rightRun, related⟩ := run
  exact ⟨leftNext, rightNext, result, leftRun, rightRun, related, kept leftRun⟩

end Together

lemma Together.unless {R : Session → Session → Prop} {left right : Session} {test : Prop}
    [Decidable test] {first second : Except Fault (Session × Int)} {result : Int}
    (related : R left right) (passed : ¬ test → Together R first second) :
    Together R (if test then .ok (left, result) else first)
      (if test then .ok (right, result) else second) := by
  split
  · exact .pure related result
  · next fails => exact passed fails

namespace EditSimulation
variable {R : Session → Session → Prop} {left right : Session}

lemma scopedTransaction (simulation : EditSimulation R)
    {body : Session → Except Fault (Session × Int)}
    (kept : ∀ {left right : Session}, R left right → Together R (body left) (body right))
    (related : R left right) :
    Together R (left.scopedTransaction body) (right.scopedTransaction body) := by
  rw [Session.scopedTransaction, Session.scopedTransaction, simulation.state related]
  split
  · refine Together.bind (kept (simulation.begins related)) ?_
    intro left right result related
    exact .pure (simulation.ends related) result
  · exact kept related

lemma replaceBytes (simulation : EditSimulation R) {offset deleteLength insertLength : Int}
    {bytes : BytesPointer} (related : R left right) :
    Together R (left.replaceBytes offset deleteLength bytes insertLength)
      (right.replaceBytes offset deleteLength bytes insertLength) := by
  rw [Session.replaceBytes, Session.replaceBytes]
  split
  · exact .pure related 0
  split
  · exact .pure related (-1)
  split
  · exact .pure related 0
  split
  · exact simulation.edit (.insert offset bytes insertLength) related
  split
  · exact simulation.edit (.delete offset deleteLength) related
  split
  · exact simulation.edit (.overwrite offset bytes insertLength) related
  refine simulation.scopedTransaction ?_ related
  intro left right related
  refine Together.bind (simulation.edit (.delete offset deleteLength) related) ?_
  intro left right deleteSerial related
  dsimp only
  split
  · exact .pure related 0
  refine Together.bind (simulation.edit (.insert offset bytes insertLength) related) ?_
  intro left right insertSerial related
  dsimp only
  split
  · refine Together.bind (simulation.undo related) ?_
    intro left right undone related
    dsimp only
    split
    · exact .pure related _
    · exact .pure related 0
  · exact .pure related insertSerial

end EditSimulation

end OmegaEdit
