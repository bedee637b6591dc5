import OmegaEdit.Library.Utf16

/-! UTF-8 as the encoding standard reads it, one byte at a time, into UTF-16 text. A
malformed sequence is refused. A byte order mark at the start is dropped. -/
namespace Utf8
open Utf16

/-- Where a decoder is: the bytes that are missing from the present character, the bounds
of the next one, the value so far, and whether nothing has been decoded yet. -/
structure State where
  needed : Nat
  lower : Nat
  upper : Nat
  value : Nat
  fresh : Bool
deriving DecidableEq, Repr

def start : State := ⟨0, 0x80, 0xbf, 0, true⟩

def units (point : Nat) : Text :=
  if point < 0x10000 then [UInt16.ofNat point]
  else [UInt16.ofNat (0xd800 + (point - 0x10000) / 0x400),
    UInt16.ofNat (0xdc00 + (point - 0x10000) % 0x400)]

def emit (fresh : Bool) (point : Nat) : Text × State :=
  (if fresh && point == 0xfeff then [] else units point, { start with fresh := false })

def step (state : State) (byte : UInt8) : Option (Text × State) :=
  let byte := byte.toNat
  match state.needed with
  | 0 =>
    if byte < 0x80 then some (emit state.fresh byte)
    else if byte < 0xc2 then none
    else if byte < 0xe0 then some ([], ⟨1, 0x80, 0xbf, byte % 0x20, state.fresh⟩)
    else if byte < 0xf0 then
      some ([], ⟨2, if byte = 0xe0 then 0xa0 else 0x80, if byte = 0xed then 0x9f else 0xbf,
        byte % 0x10, state.fresh⟩)
    else if byte < 0xf5 then
      some ([], ⟨3, if byte = 0xf0 then 0x90 else 0x80, if byte = 0xf4 then 0x8f else 0xbf,
        byte % 0x8, state.fresh⟩)
    else none
  | needed + 1 =>
    if byte < state.lower ∨ state.upper < byte then none
    else
      let value := state.value * 0x40 + byte % 0x40
      match needed with
      | 0 => some (emit state.fresh value)
      | needed + 1 => some ([], ⟨needed + 1, 0x80, 0xbf, value, state.fresh⟩)

/-- Decode what has arrived, and keep an unfinished character for later. -/
def feed (state : State) : List UInt8 → Option (Text × State)
  | [] => some ([], state)
  | byte :: rest => do
    let (text, state) ← step state byte
    let (later, state) ← feed state rest
    some (text ++ later, state)

def flush (state : State) : Option Text := if state.needed = 0 then some [] else none

def decode (bytes : List UInt8) : Option Text := do
  let (text, state) ← feed start bytes
  let rest ← flush state
  some (text ++ rest)

/-- A decoder that is fed piece by piece: how the input is cut does not matter. -/
structure Decoder (σ : Type) where
  start : σ
  feed : σ → List UInt8 → Option (Text × σ)
  flush : σ → Option Text
  feed_nil : ∀ state, feed state [] = some ([], state)
  feed_append : ∀ state first second, feed state (first ++ second) = (do
    let (text, state) ← feed state first
    let (later, state) ← feed state second
    some (text ++ later, state))

lemma feed_append (state : State) (first second : List UInt8) :
    feed state (first ++ second) = (do
      let (text, state) ← feed state first
      let (later, state) ← feed state second
      some (text ++ later, state)) := by
  induction first generalizing state with
  | nil =>
    simp only [List.nil_append, feed, Option.bind_eq_bind, Option.bind_some]
    cases feed state second <;> rfl
  | cons byte rest ih =>
    simp only [List.cons_append, feed, ih, Option.bind_eq_bind, Option.bind_assoc,
      Option.bind_some, List.append_assoc]

def decoder : Decoder State where
  start := start
  feed := feed
  flush := flush
  feed_nil _ := rfl
  feed_append := feed_append

end Utf8
