import OmegaEdit.ChangeLog.Codec

/-! The cursor over a change-log text that arrives in chunks. Every operation of the
cursor works through the buffer and asks for the next chunk when the buffer is used up,
so each of them is given by what it does with one buffer. -/
namespace OmegaEdit.ChangeLog
open Utf16 Json

inductive Chunk where
  | bytes (data : List Byte)
  | text (text : Text)

/-- What an operation makes of one buffer: it is done and leaves a rest, or it needs more. `held` is
the length of the value it has gathered. -/
inductive Outcome (α β : Type) where
  | stop (result : β) (rest : Text) (held : Nat)
  | more (state : α) (held : Nat)

/-- An input that operations work through. -/
structure Source (S : Type) where
  run : {α β : Type} → (α → Text → Except CodecError (Outcome α β)) → (α → Except CodecError β) →
    α → S → Except CodecError (β × S)
  diagnostics : S → ScanDiagnostics

structure Cursor (σ : Type) where
  buffer : Text
  source : List Chunk
  state : σ
  ended : Bool
  diagnostics : ScanDiagnostics

def ScanDiagnostics.filled (diagnostics : ScanDiagnostics) (bytes chars : Nat) : ScanDiagnostics :=
  { diagnostics with
    bytesRead := diagnostics.bytesRead + bytes
    maxBufferedChars := max diagnostics.maxBufferedChars chars }

/-- A part of a value has been gathered. -/
def ScanDiagnostics.note (diagnostics : ScanDiagnostics) (held rest : Nat) : ScanDiagnostics :=
  if held = 0 then diagnostics
  else { diagnostics with
    maxValueChars := max diagnostics.maxValueChars held
    maxBufferedChars := max diagnostics.maxBufferedChars (held + rest) }

def invalidUtf8 : CodecError := ⟨"CHANGE_LOG_INVALID_UNICODE", "Change log contains invalid UTF-8"⟩

namespace Cursor
variable {σ : Type} (decoder : Utf8.Decoder σ)

def start (source : List Chunk) : Cursor σ :=
  { buffer := [], source, state := decoder.start, ended := false, diagnostics := ⟨0, 0, 0⟩ }

def fill (cursor : Cursor σ) (text : Text) (bytes : Nat) (state : σ) (ended : Bool) : Cursor σ :=
  { cursor with
    buffer := text, state, ended, diagnostics := cursor.diagnostics.filled bytes text.length }

def load (cursor : Cursor σ) (chunk : Chunk) : Except CodecError (Cursor σ) :=
  match chunk with
  | .text text => .ok (cursor.fill text (utf8Length text) cursor.state cursor.ended)
  | .bytes data =>
    match decoder.feed cursor.state data with
    | none => .error invalidUtf8
    | some (text, state) => .ok (cursor.fill text data.length state cursor.ended)

/-- The source has ended: take what the decoder still holds. -/
def loadLast (cursor : Cursor σ) : Except CodecError (Cursor σ) :=
  if cursor.ended then .ok cursor
  else match decoder.flush cursor.state with
    | none => .error invalidUtf8
    | some text => .ok (cursor.fill text 0 cursor.state true)

section Drive
variable {α β : Type} (process : α → Text → Except CodecError (Outcome α β))
  (finish : α → Except CodecError β)

/-- Stop in the present buffer, with chunks left. -/
def stopped (cursor : Cursor σ) (source : List Chunk) (rest : Text) (held : Nat) : Cursor σ :=
  { cursor with
    buffer := rest, source, diagnostics := cursor.diagnostics.note held rest.length }

/-- Work through the buffer and the chunks that follow. -/
def drive : List Chunk → α → Cursor σ → Except CodecError (β × Cursor σ)
  | [], state, cursor => do
    match ← process state cursor.buffer with
    | .stop result rest held => .ok (result, cursor.stopped [] rest held)
    | .more state held =>
      let cursor ← (cursor.stopped [] [] held).loadLast decoder
      match ← process state cursor.buffer with
      | .stop result rest held => .ok (result, cursor.stopped [] rest held)
      | .more state held => do
        let result ← finish state
        .ok (result, cursor.stopped [] [] held)
  | chunk :: chunks, state, cursor => do
    match ← process state cursor.buffer with
    | .stop result rest held => .ok (result, cursor.stopped (chunk :: chunks) rest held)
    | .more state held =>
      let cursor ← (cursor.stopped chunks [] held).load decoder chunk
      drive chunks state cursor

end Drive

def input : Source (Cursor σ) where
  run process finish state cursor := drive decoder process finish cursor.source state cursor
  diagnostics := Cursor.diagnostics

end Cursor

/-- How a raw value begins decides where it ends. -/
inductive RawMode where
  | string
  | container
  | primitive
deriving DecidableEq, Repr

structure RawState where
  inString : Bool
  escaped : Bool
  nesting : Nat
deriving DecidableEq, Repr

def isDelimiter (unit : CodeUnit) : Bool :=
  unit == comma || unit == closeBrace || unit == closeBracket || isSpace unit

def invalidJson (message : String) : CodecError := ⟨"CHANGE_LOG_INVALID_JSON", message⟩

namespace RawState

def initial : RawState := ⟨false, false, 0⟩

/-- One unit of a raw value, and whether it is the last. -/
def step (mode : RawMode) (maxNesting : Nat) (context : String) (state : RawState) (unit : CodeUnit) :
    Except CodecError (RawState × Bool) :=
  if state.inString then
    if state.escaped then .ok ({ state with escaped := false }, false)
    else if unit = backslash then .ok ({ state with escaped := true }, false)
    else if unit = quote then
      .ok ({ state with inString := false }, decide (mode = .string ∧ state.nesting = 0))
    else .ok (state, false)
  else if unit = quote then .ok ({ state with inString := true }, false)
  else if unit = openBrace ∨ unit = openBracket then
    if state.nesting + 1 > maxNesting then
      .error ⟨"CHANGE_LOG_NESTING_LIMIT",
        "Change log JSON nesting exceeds " ++ toString maxNesting ++ " levels (" ++ context ++ ")"⟩
    else .ok ({ state with nesting := state.nesting + 1 }, false)
  else if unit = closeBrace ∨ unit = closeBracket then
    if state.nesting = 0 then
      .error (invalidJson (context ++ ": unexpected " ++ display (quoteText [unit])))
    else
      .ok ({ state with nesting := state.nesting - 1 },
        decide (mode = .container ∧ state.nesting - 1 = 0))
  else .ok (state, false)

end RawState

/-- The part of a buffer that belongs to a raw value. -/
structure RawPiece where
  state : RawState
  piece : Text
  rest : Text
  complete : Bool

/-- Scan a buffer for the end of a raw value. -/
def scanUnits (mode : RawMode) (maxNesting : Nat) (context : String) (state : RawState) :
    Text → Except CodecError RawPiece
  | [] => .ok ⟨state, [], [], false⟩
  | unit :: rest =>
    if mode = .primitive ∧ state.inString = false ∧ state.nesting = 0 ∧ isDelimiter unit then
      .ok ⟨state, [], unit :: rest, true⟩
    else do
      let (state, last) ← state.step mode maxNesting context unit
      if last then .ok ⟨state, [unit], rest, true⟩
      else
        let scanned ← scanUnits mode maxNesting context state rest
        .ok { scanned with piece := unit :: scanned.piece }

structure RawValue where
  state : RawState
  raw : Text

/-- Take from a buffer what belongs to a raw value. -/
def gatherRaw (mode : RawMode) (maxChars maxNesting : Nat) (context : String) (value : RawValue)
    (buffer : Text) : Except CodecError (Outcome RawValue Text) := do
  let scanned ← scanUnits mode maxNesting context value.state buffer
  let raw := value.raw ++ scanned.piece
  let held := if scanned.piece.isEmpty then 0 else raw.length
  if held > maxChars then
    .error ⟨"CHANGE_LOG_VALUE_LIMIT", context ++ " exceeds " ++ toString maxChars ++ " characters"⟩
  else if scanned.complete then .ok (.stop raw scanned.rest held)
  else .ok (.more ⟨scanned.state, raw⟩ held)

/-- The input ends inside a raw value. -/
def endRaw (mode : RawMode) (context : String) (value : RawValue) : Except CodecError Text :=
  if mode = .primitive ∧ value.raw.length > 0 then .ok value.raw
  else .error (invalidJson (context ++ ": unterminated JSON value"))

def RawMode.of (first : CodeUnit) : RawMode :=
  if first = quote then .string
  else if first = openBrace ∨ first = openBracket then .container
  else .primitive

namespace Source
variable {S : Type} (source : Source S)

def peek : S → Except CodecError (Option CodeUnit × S) :=
  source.run
    (fun _ buffer => .ok (match buffer with
      | [] => .more () 0
      | unit :: rest => .stop (some unit) (unit :: rest) 0))
    (fun _ => .ok none) ()

def take : S → Except CodecError (Option CodeUnit × S) :=
  source.run
    (fun _ buffer => .ok (match buffer with
      | [] => .more () 0
      | unit :: rest => .stop (some unit) rest 0))
    (fun _ => .ok none) ()

def skipWhitespace : S → Except CodecError (Unit × S) :=
  source.run
    (fun _ buffer => .ok (match skipSpaces buffer with
      | [] => .more () 0
      | unit :: rest => .stop () (unit :: rest) 0))
    (fun _ => .ok ()) ()

def found (unit : Option CodeUnit) : String :=
  match unit with
  | none => "end of input"
  | some unit => display (quoteText [unit])

def expect (expected : CodeUnit) (context : String) (input : S) : Except CodecError (Unit × S) := do
  let (_, input) ← source.skipWhitespace input
  let (actual, input) ← source.take input
  if actual ≠ some expected then
    .error (invalidJson (context ++ ": expected " ++ display (quoteText [expected]) ++ ", found " ++
      found actual))
  else .ok ((), input)

def readRawValue (maxChars maxNesting : Nat) (context : String) (input : S) :
    Except CodecError (Text × S) := do
  let (_, input) ← source.skipWhitespace input
  let (first, input) ← source.peek input
  match first with
  | none => .error (invalidJson (context ++ ": expected a JSON value, found end of input"))
  | some first =>
    let mode := RawMode.of first
    let (raw, input) ← source.run (gatherRaw mode maxChars maxNesting context) (endRaw mode context)
      ⟨.initial, []⟩ input
    if raw.isEmpty then .error (invalidJson (context ++ ": empty JSON value")) else .ok (raw, input)

end Source

end OmegaEdit.ChangeLog
