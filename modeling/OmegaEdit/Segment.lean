import OmegaEdit.Change

/-! Model segments and the loops that edit them. The update of a change and the
reinsertion of a payload walk the segment vector the same way, up to the place
of the edit; that walk is `editAtOffset`, and each of the two functions hands it
what to do there. `none` is a result of `-1`, on which the caller drops the
candidate vector or rebuilds it; a `Fault` is an `ABORT`. -/
namespace OmegaEdit

/-- The places where the code aborts the process or leaves the defined behaviour of C++, and a loop over
matches that has not ended in the calls it is given. -/
inductive Fault where
  | continuityBreak
  | unhandledKind
  | nullFile
  | indexOutOfRange
  | popEmpty
  | endless
  deriving DecidableEq, Repr

inductive SegmentKind where
  | read
  | insert
  deriving DecidableEq, Repr

structure ModelSegment where
  computedOffset : Int
  computedLength : Int
  changeOffset : Int
  change : Change
  payloadRole : PayloadRole

/-- A segment of the backing file refers to a change with serial zero. -/
def ModelSegment.kind (segment : ModelSegment) : SegmentKind :=
  if segment.change.serial = 0 then .read else .insert

def initializeModelSegments (length : Int) : List ModelSegment :=
  if length ≤ 0 then []
  else
    let change : Change :=
      { serial := 0, transactionStartSerial := 0, offset := 0, length, data := .empty,
        inverseData := .empty, kind := .insert, transactionBit := false, transformData := none,
        preservedChangesUndone := [] }
    [{ computedOffset := 0, computedLength := change.length, changeOffset := change.offset,
       change, payloadRole := .data }]

abbrev SegmentsResult := Except Fault (Option (List ModelSegment))

def shiftOffsets (delta : Int) : List ModelSegment → Option (List ModelSegment)
  | [] => some []
  | segment :: rest => do
    let computedOffset ← safeAdd segment.computedOffset delta
    let rest ← shiftOffsets delta rest
    some ({ segment with computedOffset } :: rest)

/-- Erase `remaining` bytes from the front of the segments and move what is left by `-length`. -/
def deleteSegments (length : Int) : Int → List ModelSegment → Option (List ModelSegment)
  | _, [] => some []
  | remaining, segment :: rest =>
    if remaining = 0 then shiftOffsets (-length) (segment :: rest)
    else if segment.computedLength ≤ remaining then
      deleteSegments length (remaining - segment.computedLength) rest
    else do
      let computedOffset ← safeAdd segment.computedOffset (remaining - length)
      let changeOffset ← safeAdd segment.changeOffset remaining
      let rest ← shiftOffsets (-length) rest
      some ({ segment with
        computedOffset, changeOffset,
        computedLength := segment.computedLength - remaining } :: rest)

/-- Put a segment in front and move the others behind it. -/
def insertSegment (inserted : ModelSegment) (segments : List ModelSegment) :
    Option (List ModelSegment) := do
  let rest ← shiftOffsets inserted.computedLength segments
  some (inserted :: rest)

def splitSegment (segment : ModelSegment) (delta : Int) : Option (ModelSegment × ModelSegment) := do
  let computedOffset ← safeAdd segment.computedOffset delta
  let changeOffset ← safeAdd segment.changeOffset delta
  some ({ segment with computedLength := delta }, { segment with
      computedOffset, changeOffset, computedLength := segment.computedLength - delta })

/-- Walk to `offset`, cut the segment there if it is an inner point, and run `edit` on the
segments behind it. -/
def editAtOffset (offset : Int) (edit : List ModelSegment → SegmentsResult) :
    Int → List ModelSegment → SegmentsResult
  | _, [] => .ok none
  | readOffset, segment :: rest =>
    match safeAdd segment.computedOffset segment.computedLength with
    | none => .ok none
    | some segmentEnd =>
      if readOffset ≠ segment.computedOffset then .error .continuityBreak
      else if readOffset ≤ offset ∧ offset ≤ segmentEnd then
        if offset = readOffset then edit (segment :: rest)
        else
          let delta := offset - segment.computedOffset
          if delta = segment.computedLength then do
            let edited ← edit rest
            .ok (edited.map (segment :: ·))
          else match splitSegment segment delta with
            | none => .ok none
            | some (left, right) => do
              let edited ← edit (right :: rest)
              .ok (edited.map (left :: ·))
      else match safeAdd readOffset segment.computedLength with
        | none => .ok none
        | some readOffset => do
          let edited ← editAtOffset offset edit readOffset rest
          .ok (edited.map (segment :: ·))

/-- The segment of a freshly applied insert or overwrite. -/
def changeSegment (change : Change) : ModelSegment :=
  { computedOffset := change.offset, computedLength := change.length, changeOffset := 0, change,
    payloadRole := .data }

def updateModelHelperInPlace (change : Change) : List ModelSegment → SegmentsResult
  | [] => .ok (some (if change.kind = .delete then [] else [changeSegment change]))
  | segments =>
    editAtOffset change.offset (fun located =>
      match change.kind with
      | .delete => .ok (deleteSegments change.length change.length located)
      | .overwrite | .insert => .ok (insertSegment (changeSegment change) located)
      | .transform => .error .unhandledKind) 0 segments

def insertPayloadSegment (change : Change) (role : PayloadRole) (offset length : Int)
    (segments : List ModelSegment) : SegmentsResult :=
  if validNonnegativeRange offset length = false then .ok none
  else if length = 0 then .ok (some segments)
  else
    let inserted : ModelSegment :=
      { computedOffset := offset, computedLength := length, changeOffset := 0, change,
        payloadRole := role }
    match segments with
    | [] => if offset ≠ 0 then .ok none else .ok (some [inserted])
    | segments => editAtOffset offset (fun located => .ok (insertSegment inserted located)) 0 segments

/-- Apply a change to the segments; an overwrite deletes its range first. -/
def updateModel (change : Change) (segments : List ModelSegment) : SegmentsResult :=
  match change.kind with
  | .transform => .ok (some segments)
  | .overwrite => do
    let bare := delRange 0 change.offset change.length false
    match ← updateModelHelperInPlace bare segments with
    | none => .ok none
    | some segments => updateModelHelperInPlace change segments
  | .delete | .insert => updateModelHelperInPlace change segments

/-- Apply the inverse of a change to the segments. -/
def undoChangeInModel (change : Change) (segments : List ModelSegment) : SegmentsResult :=
  match change.kind with
  | .insert =>
    let payloadLength := change.payloadLength .data
    if payloadLength ≠ change.length then .ok none
    else updateModelHelperInPlace (delRange 0 change.offset payloadLength false) segments
  | .delete =>
    let payloadLength := change.payloadLength .data
    if payloadLength ≠ change.length then .ok none
    else insertPayloadSegment change .data change.offset payloadLength segments
  | .overwrite =>
    let replacementLength := change.payloadLength .data
    if replacementLength ≠ change.length then .ok none
    else do
      let bare := delRange 0 change.offset replacementLength false
      match ← updateModelHelperInPlace bare segments with
      | none => .ok none
      | some segments =>
        insertPayloadSegment change .inverseData change.offset (change.payloadLength .inverseData)
          segments
  | .transform => .ok none

def undoChangesInModel : List Change → List ModelSegment → SegmentsResult
  | [], segments => .ok (some segments)
  | change :: rest, segments => do
    match ← undoChangeInModel change segments with
    | none => .ok none
    | some segments => undoChangesInModel rest segments

end OmegaEdit
