import OmegaEdit.Library.Substitution
import OmegaEdit.Checkpoint
import OmegaEdit.Search

/-! Replacing the matches of a search. `replaceAllBytes` streams the content with the matches
replaced into a new checkpoint file, and its reverse counterpart counts the matches first and
writes the file from its end backwards. The functions that loop over matches return `none` when
that takes more calls of `nextMatch` than they are given. One range is replaced by streaming what is
around it, as a plain checkpoint or as a transform. -/
namespace OmegaEdit

/-- Stream to an offset and compare the result with what the caller expects; a failure is the
result -1 and leaves the cursor where it is. -/
def streamExpecting (model : Model) (cursor : StreamCursor) (endOffset expected : Int)
    (write : Bool) : Except Fault (Option (StreamCursor × List Byte)) := do
  match ← streamSessionRange model cursor endOffset write with
  | none => .ok (if (-1 : Int) = expected then some (cursor, []) else none)
  | some streamed =>
    .ok (if streamed.processed = expected then some (streamed.cursor, streamed.written) else none)

/-- The loop of `replaceAllBytes` over its matches: copy up to the match, write the replacement,
pass over the match and search on. -/
def replaceLoop (model : Model) (patternLength : Int) (replacement : List Byte) :
    Nat → SearchContext → StreamCursor → List Byte → Int →
      Except Fault (Option (Option (StreamCursor × List Byte × Int)))
  | 0, _, _, _, _ => .ok none
  | calls + 1, context, cursor, written, replacementCount =>
    if context.matchOffset < cursor.offset then .ok (some none)
    else do
      match ← streamExpecting model cursor context.matchOffset
          (context.matchOffset - cursor.offset) true with
      | none => .ok (some none)
      | some (cursor, before) =>
        match safeAdd context.matchOffset patternLength with
        | none => .ok (some none)
        | some matchEnd =>
          match ← streamExpecting model cursor matchEnd patternLength false with
          | none => .ok (some none)
          | some (cursor, _) =>
            let written := written ++ before ++ replacement
            let (context, searchResult) ← context.nextMatch model patternLength
            if searchResult > 0 then
              replaceLoop model patternLength replacement calls context cursor written
                (replacementCount + 1)
            else if searchResult < 0 then .ok (some none)
            else .ok (some (some (cursor, written, replacementCount + 1)))

/-- The size of a file, which is less than 2^64, as `int64_t`. -/
def utilFileSize (file : List Byte) : Int :=
  if (file.length : Int) ≤ int64Max then file.length
  else file.length - 18446744073709551616

structure Replaced where
  session : Session
  result : Int
  replacementCount : Int

/-- Promote the file that holds the replaced content, and tell the viewports. -/
def promoteReplaced (session : Session) (file : List Byte) (fileSize replacementCount : Int) :
    Replaced :=
  let (created, checkpoint) := session.createFile file
  let (promoted, result) := created.promotePlain checkpoint fileSize
  if result ≠ 0 then ⟨session, -1, 0⟩
  else ⟨{ promoted with viewports := markAllViewportsChanged promoted.viewports }, 0,
    replacementCount⟩

/-- How much of the requested range there is. -/
def adjustedRangeLength (computedFileSize offset length : Int) : Int :=
  if length ≤ 0 then computedFileSize - offset else min length (computedFileSize - offset)

/-- The checks that the replacing functions begin with. A pattern that is longer than the range
leaves the session as it is; otherwise the body gets the length of the range. -/
def checkedReplace {α : Type} (session : Session) (pattern : BytesPointer) (patternLength : Int)
    (replacement : BytesPointer) (replacementLength offset length : Int) (failed unchanged : α)
    (body : Int → Except Fault (Option α)) : Except Fault (Option α) :=
  if pattern.isNone ∨ patternLength ≤ 0 ∨ offset < 0 ∨ length < 0 ∨ replacementLength < 0 then
    .ok (some failed)
  else if replacement.isNone ∧ replacementLength > 0 then .ok (some failed)
  else if session.changesPaused then .ok (some failed)
  else if session.computedFileSize < 0 ∨ offset > session.computedFileSize then .ok (some failed)
  else
    let adjustedLength := adjustedRangeLength session.computedFileSize offset length
    if adjustedLength < 0 then .ok (some failed)
    else if patternLength > adjustedLength then .ok (some unchanged)
    else body adjustedLength

/-- What `replaceAllBytes` does once it has a first match. -/
def replaceFromMatch (session : Session) (patternLength : Int) (replacement : List Byte)
    (offset adjustedLength : Int) (calls : Nat) (context : SearchContext) :
    Except Fault (Option Replaced) :=
  let model := session.top
  let computedFileSize := session.computedFileSize
  match initializeSessionStreamCursor model 0, safeAdd offset adjustedLength with
  | some cursor, some replaceEnd => do
    match ← streamExpecting model cursor offset (offset - cursor.offset) true with
    | none => .ok (some ⟨session, -1, 0⟩)
    | some (cursor, before) =>
      match ← replaceLoop model patternLength replacement calls context cursor before 0 with
      | none => .ok none
      | some none => .ok (some ⟨session, -1, 0⟩)
      | some (some (cursor, written, replacementCount)) =>
        match ← streamExpecting model cursor replaceEnd (replaceEnd - cursor.offset) true with
        | none => .ok (some ⟨session, -1, 0⟩)
        | some (cursor, inside) =>
          match ← streamExpecting model cursor computedFileSize
              (computedFileSize - cursor.offset) true with
          | none => .ok (some ⟨session, -1, 0⟩)
          | some (_, behind) =>
            let file := written ++ inside ++ behind
            if utilFileSize file < 0 then .ok (some ⟨session, -1, 0⟩)
            else .ok (some (promoteReplaced session file (utilFileSize file) replacementCount))
  | _, _ => .ok (some ⟨session, -1, 0⟩)

/-- What `replaceAllBytes` does with its search context. -/
def replaceSearched (session : Session) (patternLength : Int) (replacement : List Byte)
    (offset adjustedLength : Int) (calls : Nat) (context : SearchContext) :
    Except Fault (Option Replaced) := do
  let (context, searchResult) ← context.nextMatch session.top patternLength
  if searchResult < 0 then .ok (some ⟨session, -1, 0⟩)
  else if searchResult = 0 then .ok (some ⟨session, 0, 0⟩)
  else replaceFromMatch session patternLength replacement offset adjustedLength calls context

/-- What `replaceAllBytes` does after its checks. -/
def replaceStreamed (session : Session) (pattern : BytesPointer) (patternLength : Int)
    (replacement : List Byte) (caseFolding : CaseFolding) (offset adjustedLength : Int)
    (calls : Nat) : Except Fault (Option Replaced) :=
  match createContextBytes session.top pattern patternLength offset adjustedLength caseFolding
    false with
  | none => .ok (some ⟨session, -1, 0⟩)
  | some context =>
    replaceSearched session patternLength replacement offset adjustedLength calls context

def replaceAllBytes (session : Session) (pattern : BytesPointer) (patternLength : Int)
    (replacement : BytesPointer) (replacementLength : Int) (caseFolding : CaseFolding)
    (offset length : Int) (calls : Nat) : Except Fault (Option Replaced) :=
  checkedReplace session pattern patternLength replacement replacementLength offset length
    ⟨session, -1, 0⟩ ⟨session, 0, 0⟩ fun adjustedLength =>
    replaceStreamed session pattern patternLength
      (readPointer replacement replacementLength) caseFolding offset adjustedLength calls

def safeMultiplyNonnegative (lhs rhs : Int) : Option Int :=
  if lhs < 0 then none
  else if lhs = 0 ∨ rhs = 0 then some 0
  else if rhs > 0 then if lhs > int64Max / rhs then none else some (lhs * rhs)
  else if rhs = int64Min then none
  else if lhs > int64Max / -rhs then none
  else some (lhs * rhs)

def writeSessionRangeToFileAt (model : Model) (startOffset endOffset : Int) (file : List Byte)
    (outputOffset : Int) : Except Fault (Option (List Byte)) :=
  if startOffset < 0 ∨ endOffset < startOffset ∨ outputOffset < 0 then .ok none
  else if startOffset = endOffset then .ok (some file)
  else
    match initializeSessionStreamCursor model startOffset with
    | none => .ok none
    | some cursor => do
      match ← streamSessionRange model cursor endOffset true with
      | none => .ok none
      | some streamed =>
        if streamed.processed = endOffset - startOffset then
          .ok (some (Substitution.writeAt 0 file outputOffset.toNat streamed.written))
        else .ok none

def writeBytesToFileAt (file : List Byte) (outputOffset : Int) (bytes : List Byte) :
    Option (List Byte) :=
  if outputOffset < 0 then none
  else if bytes.length = 0 then some file
  else some (Substitution.writeAt 0 file outputOffset.toNat bytes)

/-- How far the file has been written, from its end backwards. -/
structure BackwardWrite where
  file : List Byte
  inputCursorEnd : Int
  outputCursorEnd : Int
  lastAccepted : Option Int

def writeMatch (model : Model) (patternLength : Int) (replacement : List Byte)
    (write : BackwardWrite) (matchOffset : Int) : Except Fault (Option BackwardWrite) :=
  match matchOverlapsPrior true write.lastAccepted matchOffset patternLength with
  | none => .ok none
  | some true => .ok (some write)
  | some false =>
    match safeAdd matchOffset patternLength with
    | none => .ok none
    | some matchEnd =>
      if matchEnd > write.inputCursorEnd then .ok none
      else
        match safeAdd write.outputCursorEnd (-(write.inputCursorEnd - matchEnd)) with
        | none => .ok none
        | some afterOffset => do
          match ← writeSessionRangeToFileAt model matchEnd write.inputCursorEnd write.file
              afterOffset with
          | none => .ok none
          | some file =>
            match safeAdd afterOffset (-(replacement.length : Int)) with
            | none => .ok none
            | some outputCursorEnd =>
              match writeBytesToFileAt file outputCursorEnd replacement with
              | none => .ok none
              | some file =>
                .ok (some { file, inputCursorEnd := matchOffset, outputCursorEnd
                            lastAccepted := some matchOffset })

/-- What the reverse replacement does once it knows how many matches there are. -/
def replaceBackward (session : Session) (pattern : BytesPointer) (patternLength : Int)
    (replacement : List Byte) (caseFolding : CaseFolding) (offset adjustedLength : Int)
    (calls : Nat) (replacementCount : Int) : Except Fault (Option Replaced) :=
  let model := session.top
  let computedFileSize := session.computedFileSize
  match (safeMultiplyNonnegative replacementCount (replacement.length - patternLength)).bind
    (safeAdd computedFileSize) with
  | none => .ok (some ⟨session, -1, 0⟩)
  | some checkpointFileSize =>
    if checkpointFileSize < 0 then .ok (some ⟨session, -1, 0⟩)
    else
      match createContextBytes model pattern patternLength offset adjustedLength caseFolding
        true with
      | none => .ok (some ⟨session, -1, 0⟩)
      | some context => do
        match ← searchLoop model (fun _ => true) (writeMatch model patternLength replacement) calls
            context
            { file := [], inputCursorEnd := computedFileSize
              outputCursorEnd := checkpointFileSize, lastAccepted := none } 0 with
        | none => .ok none
        | some none => .ok (some ⟨session, -1, 0⟩)
        | some (some (_, write, searchResult)) =>
          if searchResult < 0 then .ok (some ⟨session, -1, 0⟩)
          else if safeAdd write.outputCursorEnd (-write.inputCursorEnd) ≠ some 0 then
            .ok (some ⟨session, -1, 0⟩)
          else
            match ← writeSessionRangeToFileAt model 0 write.inputCursorEnd write.file 0 with
            | none => .ok (some ⟨session, -1, 0⟩)
            | some file =>
              if utilFileSize file ≠ checkpointFileSize then .ok (some ⟨session, -1, 0⟩)
              else .ok (some (promoteReplaced session file checkpointFileSize replacementCount))

/-- What the reverse replacement does after its checks: count the matches, then replace them. -/
def replaceCounted (session : Session) (pattern : BytesPointer) (patternLength : Int)
    (replacement : List Byte) (caseFolding : CaseFolding) (offset adjustedLength : Int)
    (calls : Nat) : Except Fault (Option Replaced) := do
  match ← countNonOverlappingMatches session.top pattern patternLength offset adjustedLength
      caseFolding true calls with
  | none => .ok none
  | some none => .ok (some ⟨session, -1, 0⟩)
  | some (some replacementCount) =>
    if replacementCount = 0 then .ok (some ⟨session, 0, 0⟩)
    else
      replaceBackward session pattern patternLength replacement caseFolding offset adjustedLength
        calls replacementCount

def replaceAllBytesReverseCheckpointed (session : Session) (pattern : BytesPointer)
    (patternLength : Int) (replacement : BytesPointer) (replacementLength : Int)
    (caseFolding : CaseFolding) (offset length : Int) (calls : Nat) :
    Except Fault (Option Replaced) :=
  checkedReplace session pattern patternLength replacement replacementLength offset length
    ⟨session, -1, 0⟩ ⟨session, 0, 0⟩ fun adjustedLength =>
    replaceCounted session pattern patternLength
      (readPointer replacement replacementLength) caseFolding offset adjustedLength calls

def replaceAllBytesDirectional (session : Session) (pattern : BytesPointer) (patternLength : Int)
    (replacement : BytesPointer) (replacementLength : Int) (caseFolding : CaseFolding)
    (isReverse : Bool) (offset length : Int) (calls : Nat) : Except Fault (Option Replaced) :=
  if isReverse then
    replaceAllBytesReverseCheckpointed session pattern patternLength replacement replacementLength
      caseFolding offset length calls
  else
    replaceAllBytes session pattern patternLength replacement replacementLength caseFolding offset
      length calls

/-- The file that `replace_bytes_checkpointed_` writes: what is in front of the range, the new
bytes, and what is behind the range. -/
def replacedFile (model : Model) (offset deleted : Int) (bytes : List Byte) (size : Int) :
    Except Fault (Option (List Byte)) :=
  match initializeSessionStreamCursor model 0 with
  | none => .ok none
  | some cursor => do
    match ← streamExpecting model cursor offset offset true, safeAdd offset deleted with
    | some (cursor, before), some deleteEnd =>
      match ← streamExpecting model cursor deleteEnd deleted false with
      | none => .ok none
      | some (cursor, _) =>
        match ← streamExpecting model cursor size (size - cursor.offset) true with
        | none => .ok none
        | some (_, behind) => .ok (some (before ++ bytes ++ behind))
    | _, _ => .ok none

/-- Promote the file; a transform has an identifier. -/
def Session.promoteReplacedBytes (session : Session) (offset deleted inserted size fileSize : Int)
    (file : List Byte) (transformId optionsJson : List Byte) : Session × Int :=
  if transformId = [] then
    let replaced := promoteReplaced session file fileSize 0
    (replaced.session, replaced.result)
  else
    session.promoteNewTransform file offset deleted transformId optionsJson inserted size fileSize

def Session.replaceBytesCheckpointed (session : Session) (offset deleteLength : Int)
    (bytes : BytesPointer) (insertLength : Int) (transformId optionsJson : List Byte) :
    Except Fault (Session × Int) :=
  if validNonnegativeRange offset deleteLength = false ∨ insertLength < 0 then .ok (session, -1)
  else if bytes.isNone ∧ insertLength > 0 then .ok (session, -1)
  else if session.changesPaused then .ok (session, -1)
  else
    let size := session.computedFileSize
    if size < 0 ∨ offset > size then .ok (session, -1)
    else
      let deleted := min deleteLength (size - offset)
      if deleted = 0 ∧ insertLength = 0 then .ok (session, 0)
      else match (safeAdd size (-deleted)).bind (safeAdd · insertLength) with
        | none => .ok (session, -1)
        | some fileSize => do
          match ← replacedFile session.top offset deleted (readPointer bytes insertLength) size with
          | none => .ok (session, -1)
          | some file =>
            if utilFileSize file ≠ fileSize then .ok (session, -1)
            else .ok (session.promoteReplacedBytes offset deleted insertLength size fileSize file
              transformId optionsJson)

end OmegaEdit
