import OmegaEdit.SafeMath
import OmegaEdit.Library.Splice

/-! Changes and their payloads. A change is a value: the shared pointers of the
code only ever share its immutable part between the change lists and the
segments, and the sign of a serial, which is the mutable part, is never read
through a segment beyond the test for zero. Payload files and checkpoint files
give back the bytes written to them; allocation failures are not modelled. -/
namespace OmegaEdit

abbrev Byte := UInt8

/-- A checkpoint file in the session's checkpoint directory, with the bytes it holds. -/
structure CheckpointFile where
  name : Nat
  bytes : List Byte
  deriving DecidableEq, Repr

inductive PayloadStorage where
  | none
  | inline
  | fileBacked
  deriving DecidableEq, Repr

structure Payload where
  storage : PayloadStorage
  bytes : List Byte
  deriving DecidableEq, Repr

inductive PayloadRole where
  | data
  | inverseData
  deriving DecidableEq, Repr

inductive ChangeKind where
  | delete
  | insert
  | overwrite
  | transform
  deriving DecidableEq, Repr

structure TransformData where
  transformId : List Byte
  optionsJson : List Byte
  checkpointFile : CheckpointFile
  replacementLength : Int
  computedFileSizeBefore : Int
  computedFileSizeAfter : Int
  deriving DecidableEq, Repr

/-- `preservedChangesUndone` belongs to the transform data of the code; it is empty for the
other kinds. Its head is the back of the vector. -/
structure Change where
  serial : Int
  transactionStartSerial : Int
  offset : Int
  length : Int
  data : Payload
  inverseData : Payload
  kind : ChangeKind
  transactionBit : Bool
  transformData : Option TransformData
  preservedChangesUndone : List Change

def Payload.empty : Payload := ⟨.none, []⟩

/-- The length `omega_data_t` can be created with. -/
def dataCapacityValid (capacity : Int) : Bool :=
  decide (0 ≤ capacity) && decide (capacity ≠ int64Max)

def populatePayloadInline (bytes : List Byte) : Option Payload :=
  if (bytes.length : Int) ≤ 0 then none
  else if dataCapacityValid bytes.length then some ⟨.inline, bytes⟩
  else none

def populatePayloadFileBacked (bytes : List Byte) : Option Payload :=
  if (bytes.length : Int) ≤ 0 then none else some ⟨.fileBacked, bytes⟩

namespace Change

def payload (change : Change) : PayloadRole → Payload
  | .data => change.data
  | .inverseData => change.inverseData

def payloadLength (change : Change) (role : PayloadRole) : Int :=
  if (change.payload role).storage = .none then 0 else (change.payload role).bytes.length

def copyPayloadBytes (change : Change) (role : PayloadRole) (offset byteCount : Int) :
    Option (List Byte) :=
  if offset < 0 ∨ byteCount < 0 then none
  else if byteCount = 0 then some []
  else
    let payload := change.payload role
    if offset > payload.bytes.length ∨ byteCount > payload.bytes.length - offset then none
    else match payload.storage with
      | .none => none
      | .inline | .fileBacked => some (Splice.slice payload.bytes offset.toNat byteCount.toNat)

/-- The same change on the other side of the undo boundary. -/
def negate (change : Change) : Change := { change with serial := -change.serial }

@[simp] lemma negate_negate (change : Change) : change.negate.negate = change := by
  cases change
  simp [negate]

end Change

/-- The bytes a caller passes: the memory its pointer points into, or a null pointer. -/
abbrev BytesPointer := Option (Nat → Byte)

def readMemory (memory : Nat → Byte) (length : Int) : List Byte :=
  (List.range length.toNat).map memory

/-- A null pointer gives no bytes. -/
def readPointer (bytes : BytesPointer) (length : Int) : List Byte :=
  match bytes with
  | none => []
  | some memory => readMemory memory length

/-- The change of a bare range: what `del_` builds before it captures a payload. -/
def delRange (serial offset length : Int) (transactionBit : Bool) : Change :=
  { serial, transactionStartSerial := 0, offset, length, data := .empty, inverseData := .empty,
    kind := .delete, transactionBit, transformData := none, preservedChangesUndone := [] }

def del (serial offset length : Int) (deleted : Payload) (transactionBit : Bool) : Option Change :=
  if (deleted.bytes.length : Int) ≠ length then none
  else do
    let data ← match deleted.storage with
      | .fileBacked => populatePayloadFileBacked deleted.bytes
      | _ => populatePayloadInline deleted.bytes
    some { delRange serial offset length transactionBit with data }

def ins (serial offset : Int) (bytes : List Byte) (length : Int) (transactionBit : Bool) :
    Option Change :=
  if serial ≤ 0 ∨ validNonnegativeRange offset length = false then none
  else do
    let data ← populatePayloadInline bytes
    some { serial, transactionStartSerial := 0, offset, length, data, inverseData := .empty,
           kind := .insert, transactionBit, transformData := none, preservedChangesUndone := [] }

def ovr (serial offset : Int) (bytes : List Byte) (length : Int) (replaced : Payload)
    (transactionBit : Bool) : Option Change :=
  if serial ≤ 0 ∨ validNonnegativeRange offset length = false then none
  else do
    let data ← populatePayloadInline bytes
    let inverseData ← match replaced.storage, replaced.bytes with
      | .fileBacked, [] => some Payload.empty
      | .fileBacked, bytes => populatePayloadFileBacked bytes
      | _, [] => some Payload.empty
      | _, bytes => populatePayloadInline bytes
    some { serial, transactionStartSerial := 0, offset, length, data, inverseData,
           kind := .overwrite, transactionBit, transformData := none, preservedChangesUndone := [] }

end OmegaEdit
