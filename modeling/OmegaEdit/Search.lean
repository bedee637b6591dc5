import OmegaEdit.Reads

/-! Search contexts: the case folding tables, the search inside of one buffer, and the search of a
range by windows of the content. The context keeps where the last match was; the end of the range
stands for a search that has not begun. A result of `-1` is a failed read or an overflow. The loops
that collect or count matches advance by one and pass over a match that overlaps the last one they
accepted. -/
namespace OmegaEdit

inductive CaseFolding where
  | none
  | ascii
  | windows1252
  | cp437
  | ebcdic037
  | macRoman
deriving DecidableEq, Repr

def asciiToLower (byte : Byte) : Byte := if 0x41 ≤ byte ∧ byte ≤ 0x5A then byte + 0x20 else byte

def windows1252Cases : List (Byte × Byte) :=
  [(0x8A, 0x9A), (0x8C, 0x9C), (0x8E, 0x9E), (0x9F, 0xFF), (0xC0, 0xE0), (0xC1, 0xE1), (0xC2, 0xE2),
    (0xC3, 0xE3), (0xC4, 0xE4), (0xC5, 0xE5), (0xC6, 0xE6), (0xC7, 0xE7), (0xC8, 0xE8),
    (0xC9, 0xE9), (0xCA, 0xEA), (0xCB, 0xEB), (0xCC, 0xEC), (0xCD, 0xED), (0xCE, 0xEE),
    (0xCF, 0xEF), (0xD0, 0xF0), (0xD1, 0xF1), (0xD2, 0xF2), (0xD3, 0xF3), (0xD4, 0xF4),
    (0xD5, 0xF5), (0xD6, 0xF6), (0xD8, 0xF8), (0xD9, 0xF9), (0xDA, 0xFA), (0xDB, 0xFB),
    (0xDC, 0xFC), (0xDD, 0xFD), (0xDE, 0xFE)]

def cp437Cases : List (Byte × Byte) :=
  [(0x80, 0x87), (0x8E, 0x84), (0x8F, 0x86), (0x90, 0x82), (0x92, 0x91), (0x99, 0x94), (0x9A, 0x81),
    (0xA5, 0xA4), (0xE4, 0xE5), (0xE8, 0xED)]

def ebcdic037Cases : List (Byte × Byte) :=
  [(0x62, 0x42), (0x63, 0x43), (0x64, 0x44), (0x65, 0x45), (0x66, 0x46), (0x67, 0x47), (0x68, 0x48),
    (0x69, 0x49), (0x71, 0x51), (0x72, 0x52), (0x73, 0x53), (0x74, 0x54), (0x75, 0x55),
    (0x76, 0x56), (0x77, 0x57), (0x78, 0x58), (0x80, 0x70), (0x9E, 0x9C), (0xAC, 0x8C),
    (0xAD, 0x8D), (0xAE, 0x8E), (0xC1, 0x81), (0xC2, 0x82), (0xC3, 0x83), (0xC4, 0x84),
    (0xC5, 0x85), (0xC6, 0x86), (0xC7, 0x87), (0xC8, 0x88), (0xC9, 0x89), (0xD1, 0x91),
    (0xD2, 0x92), (0xD3, 0x93), (0xD4, 0x94), (0xD5, 0x95), (0xD6, 0x96), (0xD7, 0x97),
    (0xD8, 0x98), (0xD9, 0x99), (0xE2, 0xA2), (0xE3, 0xA3), (0xE4, 0xA4), (0xE5, 0xA5),
    (0xE6, 0xA6), (0xE7, 0xA7), (0xE8, 0xA8), (0xE9, 0xA9), (0xEB, 0xCB), (0xEC, 0xCC),
    (0xED, 0xCD), (0xEE, 0xCE), (0xEF, 0xCF), (0xFB, 0xDB), (0xFC, 0xDC), (0xFD, 0xDD),
    (0xFE, 0xDE)]

def macRomanCases : List (Byte × Byte) :=
  [(0x80, 0x8A), (0x81, 0x8C), (0x82, 0x8D), (0x83, 0x8E), (0x84, 0x96), (0x85, 0x9A), (0x86, 0x9F),
    (0xAE, 0xBE), (0xAF, 0xBF), (0xCB, 0x88), (0xCC, 0x8B), (0xCD, 0x9B), (0xCE, 0xCF),
    (0xD9, 0xD8), (0xE5, 0x89), (0xE6, 0x90), (0xE7, 0x87), (0xE8, 0x91), (0xE9, 0x8F),
    (0xEA, 0x92), (0xEB, 0x94), (0xEC, 0x95), (0xED, 0x93), (0xEE, 0x97), (0xEF, 0x99),
    (0xF1, 0x98), (0xF2, 0x9C), (0xF3, 0x9E), (0xF4, 0x9D)]

namespace CaseFolding

/-- The byte transform of a folding; without one the bytes stay as they are. -/
def toLower : CaseFolding → Byte → Byte
  | none, byte => byte
  | ascii, byte => asciiToLower byte
  | windows1252, byte => (windows1252Cases.lookup byte).getD (asciiToLower byte)
  | cp437, byte => (cp437Cases.lookup byte).getD (asciiToLower byte)
  | ebcdic037, byte => (ebcdic037Cases.lookup byte).getD byte
  | macRoman, byte => (macRomanCases.lookup byte).getD (asciiToLower byte)

def fold (folding : CaseFolding) (bytes : List Byte) : List Byte := bytes.map folding.toLower

end CaseFolding

structure SkipTable where
  skip : Byte → Nat
  isReverseSearch : Bool

/-- The loop of a forward table after some rounds: all bytes of the needle but the last one. -/
def forwardSkips (needle : List Byte) : Nat → Byte → Nat
  | 0, _ => needle.length
  | i + 1, byte =>
    if byte = needle.getD i 0 then needle.length - 1 - i else forwardSkips needle i byte

/-- The loop of a reverse table: all bytes of the needle but the first one, from the last on. -/
def reverseSkips (needle : List Byte) : Nat → Byte → Nat
  | 0, _ => needle.length
  | i + 1, byte =>
    if byte = needle.getD (needle.length - 1 - i) 0 then needle.length - 1 - i
    else reverseSkips needle i byte

def createSkipTable (needle : List Byte) (isReverseSearch : Bool) : SkipTable :=
  ⟨if isReverseSearch then reverseSkips needle (needle.length - 1)
    else forwardSkips needle (needle.length - 1), isReverseSearch⟩

/-- The forward loop of `omega_find`; the fuel bounds the number of moves. -/
def findForward (haystack needle : List Byte) (skip : Byte → Nat) : Nat → Nat → Option Nat
  | 0, _ => none
  | fuel + 1, position =>
    if position + needle.length ≤ haystack.length then
      let probe := haystack.getD (position + (needle.length - 1)) 0
      if needle.getD (needle.length - 1) 0 = probe ∧
          Splice.slice haystack position needle.length = needle then some position
      else findForward haystack needle skip fuel (position + skip probe)
    else none

def findReverse (haystack needle : List Byte) (skip : Byte → Nat) : Nat → Int → Option Nat
  | 0, _ => none
  | fuel + 1, position =>
    if 0 ≤ position then
      let probe := haystack.getD position.toNat 0
      if needle.getD 0 0 = probe ∧
          Splice.slice haystack position.toNat needle.length = needle then some position.toNat
      else findReverse haystack needle skip fuel (position - skip probe)
    else none

/-- `memrchr`: the last place of a byte. -/
def lastIndexOf (byte : Byte) : List Byte → Option Nat
  | [] => none
  | first :: rest =>
    match lastIndexOf byte rest with
    | some place => some (place + 1)
    | none => if first = byte then some 0 else none

/-- `omega_find`: the place of the first match, or of the last one for a reverse search. -/
def find (haystack : List Byte) (table : SkipTable) (needle : List Byte) : Option Nat :=
  if needle.length > haystack.length then none
  else if needle.length = 1 then
    if table.isReverseSearch then lastIndexOf (needle.getD 0 0) haystack
    else haystack.idxOf? (needle.getD 0 0)
  else if table.isReverseSearch then
    findReverse haystack needle table.skip (haystack.length + 1) (haystack.length - needle.length)
  else findForward haystack needle table.skip (haystack.length + 1) 0

/-- `OMEGA_SEARCH_PATTERN_LENGTH_LIMIT`. -/
def searchPatternLengthLimit : Int := 524288

/-- `MAX_SEGMENT_LENGTH`. -/
def maxSegmentLength : Int := 1048576

structure SearchContext where
  /-- The pattern after folding. -/
  pattern : List Byte
  sessionOffset : Int
  sessionLength : Int
  matchOffset : Int
  caseFolding : CaseFolding
  skipTable : SkipTable

def createContextBytes (model : Model) (pattern : BytesPointer)
    (patternLength sessionOffset sessionLength : Int) (caseFolding : CaseFolding)
    (isReverseSearch : Bool) : Option SearchContext :=
  match pattern with
  | none => none
  | some memory =>
    if sessionOffset < 0 ∨ patternLength ≤ 0 then none
    else if model.computedFileSize < 0 ∨ sessionOffset > model.computedFileSize then none
    else
      let sessionLengthComputed :=
        if sessionLength ≠ 0 then sessionLength else model.computedFileSize - sessionOffset
      match safeAdd sessionOffset sessionLengthComputed with
      | none => none
      | some sessionEnd =>
        if sessionLengthComputed < 0 ∨ sessionEnd > model.computedFileSize then none
        else if patternLength < searchPatternLengthLimit ∧
            patternLength ≤ sessionLengthComputed then
          let folded := caseFolding.fold (readMemory memory patternLength)
          some
            { pattern := folded, sessionOffset, sessionLength := sessionLengthComputed
              matchOffset := sessionEnd, caseFolding
              skipTable := createSkipTable folded isReverseSearch }
        else none

namespace SearchContext
variable (context : SearchContext)

def isReverse : Bool := context.skipTable.isReverseSearch

def patternLength : Int := context.pattern.length

/-- The loop over the windows: `none` is a failure, `some none` no match. -/
def searchWindows (model : Model) (capacity : Int) : Nat → Int → Except Fault (Option (Option Int))
  | 0, _ => .ok (some none)
  | fuel + 1, offset => do
    let strideSize := 1 + capacity - context.patternLength
    match ← populateDataSegment model offset 0 capacity with
    | none => .ok none
    | some data =>
      match find (context.caseFolding.fold data) context.skipTable context.pattern with
      | some found => .ok ((safeAdd offset found).map some)
      | none =>
        match safeAdd offset (if context.isReverse then -strideSize else strideSize) with
        | none => .ok (some none)
        | some offset =>
          if maxSegmentLength = data.length then searchWindows model capacity fuel offset
          else .ok (some none)

/-- How much of the range is left to search. -/
def searchLength (isBegin : Bool) (advanceContext : Int) : Int :=
  if context.isReverse then
    if isBegin then context.sessionLength
    else max (context.matchOffset - context.sessionOffset - advanceContext + 1) 0
  else
    if isBegin then context.sessionLength
    else context.sessionLength - (context.matchOffset - context.sessionOffset)

/-- Where the first window begins. -/
def windowOffset (lastOffset capacity : Int) (isBegin : Bool) (advanceContext : Int) : Option Int :=
  if context.isReverse then
    if isBegin then some (lastOffset - capacity)
    else do
      let rewind ← safeAdd capacity advanceContext
      let offset ← safeAdd context.matchOffset (-rewind)
      safeAdd offset 1
  else if isBegin then some context.sessionOffset
  else safeAdd context.matchOffset advanceContext

def nextMatch (model : Model) (advanceContext : Int) : Except Fault (SearchContext × Int) :=
  if advanceContext < 0 then .ok (context, 0)
  else match safeAdd context.sessionOffset context.sessionLength with
    | none => .ok (context, -1)
    | some lastOffset =>
      let isBegin := decide (context.matchOffset = lastOffset)
      let searchLength := context.searchLength isBegin advanceContext
      let exhausted : SearchContext := { context with matchOffset := lastOffset }
      if context.patternLength ≤ searchLength then
        let capacity := min searchLength maxSegmentLength
        match context.windowOffset lastOffset capacity isBegin advanceContext with
        | none => .ok (context, -1)
        | some offset => do
          -- no more windows than bytes
          match ← context.searchWindows model capacity (model.computedFileSize.toNat + 2) offset with
          | none => .ok (context, -1)
          | some none => .ok (exhausted, 0)
          | some (some matchOffset) => .ok ({ context with matchOffset }, 1)
      else .ok (exhausted, 0)

/-- A loop that calls `nextMatch` until its result is not positive, if that takes no more than
`calls` calls: the matches and the last result. -/
def matchLoop (model : Model) (advanceContext : Int) :
    Nat → SearchContext → Except Fault (Option (List Int × Int))
  | 0, _ => .ok none
  | calls + 1, context => do
    let (next, result) ← context.nextMatch model advanceContext
    if result > 0 then
      match ← matchLoop model advanceContext calls next with
      | none => .ok none
      | some (offsets, last) => .ok (some (next.matchOffset :: offsets, last))
    else .ok (some ([], result))

end SearchContext

/-- Whether a match overlaps the last accepted one, if there is any; `none` is a failed check. -/
def matchOverlapsPrior (isReverse : Bool) (lastAccepted : Option Int)
    (matchOffset patternLength : Int) : Option Bool :=
  match lastAccepted with
  | none => some false
  | some lastAcceptedOffset => do
    let matchEnd ← safeAdd matchOffset patternLength
    let lastAcceptedEnd ← safeAdd lastAcceptedOffset patternLength
    some (if isReverse then decide (lastAcceptedOffset < matchEnd)
      else decide (matchOffset < lastAcceptedEnd))

/-- A loop that calls `nextMatch` while `goOn` holds and there is a match, with a body that may
leave it by an error (`some none`). The result is `none` if that takes more than `calls` calls. -/
def searchLoop {σ : Type} (model : Model) (goOn : σ → Bool)
    (body : σ → Int → Except Fault (Option σ)) :
    Nat → SearchContext → σ → Int → Except Fault (Option (Option (SearchContext × σ × Int)))
  | 0, context, state, searchResult =>
    if goOn state then .ok none else .ok (some (some (context, state, searchResult)))
  | calls + 1, context, state, searchResult =>
    if goOn state then do
      let (context, searchResult) ← context.nextMatch model 1
      if searchResult > 0 then
        match ← body state context.matchOffset with
        | none => .ok (some none)
        | some state => searchLoop model goOn body calls context state searchResult
      else .ok (some (some (context, state, searchResult)))
    else .ok (some (some (context, state, searchResult)))

structure MatchCount where
  matchCount : Int
  lastAccepted : Option Int

def countMatch (isReverse : Bool) (patternLength : Int) (counted : MatchCount) (matchOffset : Int) :
    Except Fault (Option MatchCount) :=
  match matchOverlapsPrior isReverse counted.lastAccepted matchOffset patternLength with
  | none => .ok none
  | some true => .ok (some counted)
  | some false =>
    match safeAdd counted.matchCount 1 with
    | none => .ok none
    | some matchCount => .ok (some { matchCount, lastAccepted := some matchOffset })

/-- The number of matches, `some none` on an error, `none` while it is still counting. -/
def countNonOverlappingMatches (model : Model) (pattern : BytesPointer)
    (patternLength offset length : Int) (caseFolding : CaseFolding) (isReverse : Bool)
    (calls : Nat) : Except Fault (Option (Option Int)) :=
  match createContextBytes model pattern patternLength offset length caseFolding isReverse with
  | none => .ok (some none)
  | some context => do
    match ← searchLoop model (fun _ => true) (countMatch isReverse patternLength) calls context
        { matchCount := 0, lastAccepted := none } 0 with
    | none => .ok none
    | some none => .ok (some none)
    | some (some (_, counted, searchResult)) =>
      .ok (some (if searchResult < 0 then none else some counted.matchCount))

def collectMatch (isReverse : Bool) (patternLength : Int) (matchOffsets : List Int)
    (matchOffset : Int) : Except Fault (Option (List Int)) :=
  match matchOverlapsPrior isReverse matchOffsets.getLast? matchOffset patternLength with
  | none => .ok none
  | some true => .ok (some matchOffsets)
  | some false => .ok (some (matchOffsets ++ [matchOffset]))

/-- The loop of `replaceMatchesBytes` that collects the matches. -/
def collectMatches (model : Model) (isReverse : Bool) (patternLength collectLimit : Int)
    (calls : Nat) (context : SearchContext) :
    Except Fault (Option (Option (SearchContext × List Int × Int))) :=
  searchLoop model (fun matchOffsets : List Int => decide (matchOffsets.length < collectLimit))
    (collectMatch isReverse patternLength) calls context [] 0

end OmegaEdit
