import OmegaEdit.ChangeLog.Scan

/-! The scanner does not depend on how its input is cut into chunks. Its operations
commute with cutting a buffer in two, so a cursor over chunks behaves as an input that
holds the whole text, and all scanners over related inputs agree. An input that cannot
be decoded is never accepted: the scanner only stops at its end. -/
namespace OmegaEdit.ChangeLog
open Transition (bind_eq_ok)
open Utf16 Json
variable {next whole : Whole} {first second : Text} {state : RawState} {scanned : RawPiece}
  {fuel : Nat}

/-- The whole of an input: the text that can be decoded, and whether the decoding fails after it. -/
structure Whole where
  text : Text
  broken : Bool

/-- Go on after a whole text has been worked through. -/
def Whole.resume {α β : Type} (finish : α → Except CodecError β) (broken : Bool) :
    Outcome α β → Except CodecError (β × Whole)
  | .stop result rest _ => .ok (result, ⟨rest, broken⟩)
  | .more state _ =>
    if broken then .error invalidUtf8
    else do
      let result ← finish state
      .ok (result, ⟨[], broken⟩)

def Whole.input : Source Whole where
  run process finish state whole := process state whole.text >>= resume finish whole.broken
  diagnostics _ := ⟨0, 0, 0⟩

/-- Two outcomes that differ at most in what is noted. -/
inductive Alike {α β : Type} : Except CodecError (Outcome α β) → Except CodecError (Outcome α β) → Prop where
  | stop {result : β} {rest : Text} {held other : Nat} :
      Alike (.ok (.stop result rest held)) (.ok (.stop result rest other))
  | more {state : α} {held other : Nat} : Alike (.ok (.more state held)) (.ok (.more state other))
  | error {first second : CodecError} : Alike (.error first) (.error second)

/-- An operation for which it does not matter where a buffer ends. -/
structure Splits {α β : Type} (process : α → Text → Except CodecError (Outcome α β)) : Prop where
  nil : ∀ state, process state [] = .ok (.more state 0)
  stop : ∀ {state first result rest held}, process state first = .ok (.stop result rest held) →
    ∀ second, Alike (process state (first ++ second)) (.ok (.stop result (rest ++ second) held))
  more : ∀ {state first next held}, process state first = .ok (.more next held) →
    ∀ second, Alike (process state (first ++ second)) (process next second)
  error : ∀ {state first fault}, process state first = .error fault →
    ∀ second, ∃ other, process state (first ++ second) = .error other

/-- Results over two inputs: the same with related inputs left, or two errors. -/
inductive Agrees {S T β : Type} (rel : S → T → Prop) (same : CodecError → CodecError → Prop) :
    Except CodecError (β × S) → Except CodecError (β × T) → Prop where
  | ok {result : β} {left : S} {right : T} (related : rel left right) :
      Agrees rel same (.ok (result, left)) (.ok (result, right))
  | error {first second : CodecError} (alike : same first second) :
      Agrees rel same (.error first) (.error second)

namespace Agrees
variable {S T β γ : Type} {rel : S → T → Prop} {same : CodecError → CodecError → Prop}

lemma bind {left : Except CodecError (β × S)} {right : Except CodecError (β × T)}
    {next : β × S → Except CodecError (γ × S)} {other : β × T → Except CodecError (γ × T)}
    (agrees : Agrees rel same left right)
    (continued : ∀ result left right, rel left right →
      Agrees rel same (next (result, left)) (other (result, right))) :
    Agrees rel same (left >>= next) (right >>= other) := by
  cases agrees with
  | ok related => exact continued _ _ _ related
  | error alike => exact .error alike

lemma lift (refl : ∀ fault, same fault fault) {step : Except CodecError β}
    {next : β → Except CodecError (γ × S)} {other : β → Except CodecError (γ × T)}
    (continued : ∀ result, Agrees rel same (next result) (other result)) :
    Agrees rel same (step >>= next) (step >>= other) := by
  cases step with
  | error fault => exact .error (refl fault)
  | ok result => exact continued result

end Agrees

/-- Two inputs on which every operation agrees. -/
structure Linked {S T : Type} (left : Source S) (right : Source T) (rel : S → T → Prop)
    (same : CodecError → CodecError → Prop) : Prop where
  refl : ∀ fault, same fault fault
  run : ∀ {α β : Type} {process : α → Text → Except CodecError (Outcome α β)}
    (finish : α → Except CodecError β) (state : α) {s : S} {t : T}, Splits process → rel s t →
    Agrees rel same (left.run process finish state s) (right.run process finish state t)

section Operations

lemma splits_first {left : CodeUnit → Text → Text}
    (goesOn : ∀ unit rest second, left unit (rest ++ second) = left unit rest ++ second) :
    Splits (fun (_ : Unit) (buffer : Text) =>
      (.ok (match buffer with
        | [] => .more () 0
        | unit :: rest => .stop (some unit) (left unit rest) 0) :
          Except CodecError (Outcome Unit (Option CodeUnit)))) where
  nil _ := rfl
  stop {state first result rest held} done second := by
    cases first with
    | nil => cases done
    | cons unit units =>
      cases done
      rw [← goesOn]
      exact .stop
  more {state first next held} done second := by
    cases first with
    | nil =>
      rw [List.nil_append]
      cases second with
      | nil => exact .more
      | cons unit units => exact .stop
    | cons unit units => cases done
  error done := by cases done

lemma skipSpaces_of_cons {rest : Text} {unit : CodeUnit} (skipped : skipSpaces first = unit :: rest) :
    skipSpaces (first ++ second) = unit :: (rest ++ second) := by
  obtain ⟨space, spaces, whole, starts⟩ := skipSpaces_spec first
  rw [skipped] at whole starts
  rw [whole, List.append_assoc]
  exact skipSpaces_append spaces (starts_cons (starts unit rfl))

lemma skipSpaces_of_nil (skipped : skipSpaces first = []) :
    skipSpaces (first ++ second) = skipSpaces second := by
  obtain ⟨space, spaces, whole, _⟩ := skipSpaces_spec first
  rw [skipped, List.append_nil] at whole
  rw [whole, skipSpaces, List.dropWhile_append_of_pos spaces, skipSpaces]

lemma splits_skipWhitespace : Splits (fun (_ : Unit) (buffer : Text) =>
    (.ok (match skipSpaces buffer with
      | [] => .more () 0
      | unit :: rest => .stop () (unit :: rest) 0) :
        Except CodecError (Outcome Unit Unit))) where
  nil _ := rfl
  stop {state first result rest held} done second := by
    cases skipped : skipSpaces first with
    | nil =>
      rw [skipped] at done
      cases done
    | cons unit units =>
      rw [skipped] at done
      cases done
      rw [skipSpaces_of_cons skipped]
      exact .stop
  more {state first next held} done second := by
    cases skipped : skipSpaces first with
    | nil =>
      rw [skipSpaces_of_nil skipped]
      cases skipSpaces second with
      | nil => exact .more
      | cons unit units => exact .stop
    | cons unit units =>
      rw [skipped] at done
      cases done
  error done := by cases done

end Operations

section Raw
variable {mode : RawMode} {maxNesting : Nat} {context : String}

/-- Scanning goes on in the next buffer where it stopped. -/
lemma scanUnits_append (state : RawState) (first second : Text) :
    scanUnits mode maxNesting context state (first ++ second) =
      scanUnits mode maxNesting context state first >>= fun scanned =>
        if scanned.complete then .ok { scanned with rest := scanned.rest ++ second }
        else (scanUnits mode maxNesting context scanned.state second).map fun later =>
          { later with piece := scanned.piece ++ later.piece } := by
  induction first generalizing state with
  | nil =>
    rw [List.nil_append]
    cases later : scanUnits mode maxNesting context state second with
    | error fault | ok later => simp [scanUnits, bind, Except.bind, later, Except.map]
  | cons unit rest ih =>
    rw [List.cons_append, scanUnits, scanUnits]
    split
    · rfl
    cases state.step mode maxNesting context unit with
    | error fault => rfl
    | ok outcome =>
      obtain ⟨next, last⟩ := outcome
      cases last with
      | true => rfl
      | false =>
        simp only [bind, Except.bind, Bool.false_eq_true, if_false, ih]
        cases scanUnits mode maxNesting context next rest with
        | error fault => rfl
        | ok scanned =>
          by_cases complete : scanned.complete
          · simp only [if_pos complete]
          · simp only [if_neg complete]
            cases scanUnits mode maxNesting context scanned.state second with
            | error fault | ok later => rfl

/-- The length that is checked against the limit: nothing is checked while nothing is gathered. -/
def RawPiece.held (scanned : RawPiece) (value : RawValue) : Nat :=
  if scanned.piece.isEmpty then 0 else (value.raw ++ scanned.piece).length

/-- What a scanned buffer does to a raw value. -/
def RawPiece.outcome (scanned : RawPiece) (maxChars : Nat) (context : String) (value : RawValue) :
    Except CodecError (Outcome RawValue Text) :=
  if scanned.held value > maxChars then
    .error ⟨"CHANGE_LOG_VALUE_LIMIT", context ++ " exceeds " ++ toString maxChars ++ " characters"⟩
  else if scanned.complete then .ok (.stop (value.raw ++ scanned.piece) scanned.rest (scanned.held value))
  else .ok (.more ⟨scanned.state, value.raw ++ scanned.piece⟩ (scanned.held value))

variable {maxChars : Nat}

lemma gatherRaw_eq (value : RawValue) (buffer : Text) :
    gatherRaw mode maxChars maxNesting context value buffer =
      (scanUnits mode maxNesting context value.state buffer >>= fun scanned =>
        scanned.outcome maxChars context value) := rfl

lemma held_le_append {later : RawPiece} {value : RawValue}
    (longer : ∃ more, later.piece = scanned.piece ++ more) :
    scanned.held value ≤ later.held value := by
  obtain ⟨more, longer⟩ := longer
  rw [RawPiece.held, RawPiece.held, longer]
  split
  · exact Nat.zero_le _
  · rename_i gathered
    rw [if_neg (by simpa using fun empty => absurd empty (by simpa using gathered))]
    simp

lemma splits_gatherRaw : Splits (gatherRaw mode maxChars maxNesting context) where
  nil value := by
    rw [gatherRaw_eq, scanUnits]
    simp [bind, Except.bind, RawPiece.outcome, RawPiece.held]
  stop {value first result rest held} done second := by
    obtain ⟨scanned, scan, done⟩ := bind_eq_ok.mp done
    have outcome : scanned.outcome maxChars context value = .ok (.stop result rest held) := done
    rw [RawPiece.outcome] at outcome
    split at outcome
    · cases outcome
    rename_i small
    split at outcome
    · rename_i complete
      cases outcome
      have stopped : RawPiece.outcome { scanned with rest := scanned.rest ++ second } maxChars context
          value = .ok (.stop (value.raw ++ scanned.piece) (scanned.rest ++ second)
            (scanned.held value)) := by
        rw [RawPiece.outcome, if_neg (by exact small), if_pos (by exact complete)]
        rfl
      rw [gatherRaw_eq, scanUnits_append, scan]
      simp only [bind, Except.bind, if_pos complete, stopped]
      exact .stop
    · cases outcome
  more {value first next held} done second := by
    obtain ⟨scanned, scan, done⟩ := bind_eq_ok.mp done
    have outcome : scanned.outcome maxChars context value = .ok (.more next held) := done
    rw [RawPiece.outcome] at outcome
    split at outcome
    · cases outcome
    rename_i small
    split at outcome
    · cases outcome
    rename_i open_
    cases outcome
    rw [gatherRaw_eq, gatherRaw_eq, scanUnits_append, scan]
    simp only [bind, Except.bind, if_neg open_]
    cases scanUnits mode maxNesting context scanned.state second with
    | error fault => exact .error
    | ok final =>
      simp only [Except.map, RawPiece.outcome, ← List.append_assoc]
      by_cases empty : final.piece = []
      · have combined :
            ¬ RawPiece.held { final with piece := scanned.piece ++ final.piece } value > maxChars := by
          simpa [RawPiece.held, empty] using small
        have separate : ¬ final.held ⟨scanned.state, value.raw ++ scanned.piece⟩ > maxChars := by
          simp [RawPiece.held, empty]
        rw [if_neg combined, if_neg separate]
        split
        · exact .stop
        · exact .more
      · have combined : RawPiece.held { final with piece := scanned.piece ++ final.piece } value =
            final.held ⟨scanned.state, value.raw ++ scanned.piece⟩ := by
          simp [RawPiece.held, empty]
        rw [combined]
        split
        · exact .error
        · split
          · exact .stop
          · exact .more
  error {value first fault} done second := by
    rw [gatherRaw_eq] at done ⊢
    rw [scanUnits_append]
    cases scan : scanUnits mode maxNesting context value.state first with
    | error other => exact ⟨other, rfl⟩
    | ok scanned =>
      rw [scan] at done
      have outcome : scanned.outcome maxChars context value = .error fault := done
      rw [RawPiece.outcome] at outcome
      split at outcome
      · rename_i large
        by_cases complete : scanned.complete
        · simp only [bind, Except.bind, if_pos complete]
          exact ⟨_, if_pos large⟩
        · simp only [bind, Except.bind, if_neg complete]
          cases scanUnits mode maxNesting context scanned.state second with
          | error other => exact ⟨other, rfl⟩
          | ok final =>
            exact ⟨_, if_pos (lt_of_lt_of_le large (held_le_append ⟨final.piece, rfl⟩))⟩
      · split at outcome
        · cases outcome
        · cases outcome

end Raw

namespace Linked
variable {S T : Type} {left : Source S} {right : Source T} {rel : S → T → Prop}
  {same : CodecError → CodecError → Prop} (linked : Linked left right rel same) {s : S} {t : T}
include linked

lemma peek (related : rel s t) : Agrees rel same (left.peek s) (right.peek t) :=
  linked.run _ _ (splits_first fun _ _ _ => rfl) related

lemma take (related : rel s t) : Agrees rel same (left.take s) (right.take t) :=
  linked.run _ _ (splits_first fun _ _ _ => rfl) related

lemma skipWhitespace (related : rel s t) :
    Agrees rel same (left.skipWhitespace s) (right.skipWhitespace t) :=
  linked.run _ _ splits_skipWhitespace related

lemma expect (expected : CodeUnit) (context : String) (related : rel s t) :
    Agrees rel same (left.expect expected context s) (right.expect expected context t) := by
  refine (linked.skipWhitespace related).bind fun _ s t related => ?_
  refine (linked.take related).bind fun actual s t related => ?_
  dsimp only
  split
  · exact .error (linked.refl _)
  · exact .ok related

lemma readRawValue (maxChars maxNesting : Nat) (context : String) (related : rel s t) :
    Agrees rel same (left.readRawValue maxChars maxNesting context s)
      (right.readRawValue maxChars maxNesting context t) := by
  refine (linked.skipWhitespace related).bind fun _ s t related => ?_
  refine (linked.peek related).bind fun first s t related => ?_
  cases first with
  | none => exact .error (linked.refl _)
  | some first =>
    refine (linked.run _ _ splits_gatherRaw related).bind fun raw s t related => ?_
    dsimp only
    split
    · exact .error (linked.refl _)
    · exact .ok related

variable (engine : Engine) (limits : CodecLimits)

lemma readPropertyName (related : rel s t) :
    Agrees rel same (left.readPropertyName engine limits s) (right.readPropertyName engine limits t) := by
  refine (linked.readRawValue _ _ _ related).bind fun raw s t related => ?_
  refine Agrees.lift linked.refl fun value => ?_
  cases value with
  | string name => exact .ok related
  | _ => exact .error (linked.refl _)

lemma readEntry (index : Nat) (accumulator : ScanAccumulator) (related : rel s t) :
    Agrees rel same (left.readEntry engine limits index accumulator s)
      (right.readEntry engine limits index accumulator t) := by
  refine (linked.readRawValue _ _ _ related).bind fun raw s t related => ?_
  refine Agrees.lift linked.refl fun value => ?_
  refine Agrees.lift linked.refl fun _ => ?_
  refine Agrees.lift linked.refl fun entry => ?_
  exact Agrees.lift linked.refl fun accumulator => .ok related

lemma readDelimiter (close : CodeUnit) (container expected trailing : String) (related : rel s t) :
    Agrees rel same (left.readDelimiter close container expected trailing s)
      (right.readDelimiter close container expected trailing t) := by
  refine (linked.skipWhitespace related).bind fun _ s t related => ?_
  refine (linked.take related).bind fun delimiter s t related => ?_
  dsimp only
  split
  · exact .ok related
  split
  · exact .error (linked.refl _)
  refine (linked.skipWhitespace related).bind fun _ s t related => ?_
  refine (linked.peek related).bind fun next s t related => ?_
  dsimp only
  split
  · exact .error (linked.refl _)
  · exact .ok related

lemma scanEntries (fuel index : Nat) (accumulator : ScanAccumulator) (related : rel s t) :
    Agrees rel same (left.scanEntries engine limits fuel index accumulator s)
      (right.scanEntries engine limits fuel index accumulator t) := by
  induction fuel generalizing index accumulator s t with
  | zero => exact .error (linked.refl _)
  | succ fuel ih =>
    refine (linked.readEntry engine limits index accumulator related).bind
      fun ⟨entry, accumulator⟩ s t related => ?_
    refine (linked.readDelimiter _ _ _ _ related).bind fun more s t related => ?_
    cases more with
    | false => exact .ok related
    | true => exact (ih (index + 1) accumulator related).bind fun _ s t related => .ok related

lemma scanChanges (fuel : Nat) (accumulator : ScanAccumulator) (related : rel s t) :
    Agrees rel same (left.scanChanges engine limits fuel accumulator s)
      (right.scanChanges engine limits fuel accumulator t) := by
  refine (linked.expect _ _ related).bind fun _ s t related => ?_
  refine (linked.skipWhitespace related).bind fun _ s t related => ?_
  refine (linked.peek related).bind fun next s t related => ?_
  dsimp only
  split
  · exact (linked.take related).bind fun _ s t related => .ok related
  · exact linked.scanEntries engine limits fuel 0 accumulator related

lemma readHeaderValue (property : Text) (related : rel s t) :
    Agrees rel same (left.readHeaderValue engine limits property s)
      (right.readHeaderValue engine limits property t) := by
  refine (linked.readRawValue _ _ _ related).bind fun raw s t related => ?_
  refine Agrees.lift linked.refl fun value => ?_
  exact Agrees.lift linked.refl fun _ => .ok related

lemma scanProperty (fuel : Nat) (scanned : Scanned) (related : rel s t) :
    Agrees rel same (left.scanProperty engine limits fuel scanned s)
      (right.scanProperty engine limits fuel scanned t) := by
  refine (linked.readPropertyName engine limits related).bind fun property s t related => ?_
  dsimp only
  split
  · exact .error (linked.refl _)
  refine (linked.expect _ _ related).bind fun _ s t related => ?_
  dsimp only
  split
  · exact (linked.scanChanges engine limits fuel _ related).bind fun _ s t related => .ok related
  · exact (linked.readHeaderValue engine limits property related).bind fun _ s t related => .ok related

lemma scanProperties (fuel : Nat) (scanned : Scanned) (related : rel s t) :
    Agrees rel same (left.scanProperties engine limits fuel scanned s)
      (right.scanProperties engine limits fuel scanned t) := by
  induction fuel generalizing scanned s t with
  | zero => exact .error (linked.refl _)
  | succ fuel ih =>
    refine (linked.scanProperty engine limits fuel scanned related).bind
      fun scanned s t related => ?_
    refine (linked.readDelimiter _ _ _ _ related).bind fun more s t related => ?_
    cases more with
    | false => exact .ok related
    | true => exact ih scanned related

lemma scanObject (fuel : Nat) (related : rel s t) :
    Agrees rel same (left.scanObject engine limits fuel s) (right.scanObject engine limits fuel t) := by
  refine (linked.expect _ _ related).bind fun _ s t related => ?_
  refine (linked.skipWhitespace related).bind fun _ s t related => ?_
  refine (linked.peek related).bind fun next s t related => ?_
  dsimp only
  split
  · exact (linked.take related).bind fun _ s t related => .ok related
  · exact linked.scanProperties engine limits fuel .initial related

/-- Scanners over linked inputs agree. -/
theorem scanDocument (fuel : Nat) (related : rel s t) :
    Agrees rel same (left.scanDocument engine limits fuel s) (right.scanDocument engine limits fuel t) := by
  refine (linked.scanObject engine limits fuel related).bind fun scanned s t related => ?_
  dsimp only
  split
  · exact .error (linked.refl _)
  refine (linked.skipWhitespace related).bind fun _ s t related => ?_
  refine (linked.peek related).bind fun next s t related => ?_
  dsimp only
  split
  · exact .error (linked.refl _)
  · exact .ok related

end Linked

namespace Cursor
variable {σ : Type} (decoder : Utf8.Decoder σ)

/-- The text of the chunks that can be decoded, and whether the decoding fails after it. -/
def remaining : List Chunk → σ → Bool → Whole
  | [], state, ended =>
    if ended then ⟨[], false⟩
    else match decoder.flush state with
      | none => ⟨[], true⟩
      | some text => ⟨text, false⟩
  | .text text :: chunks, state, ended =>
    let later := remaining chunks state ended
    { later with text := text ++ later.text }
  | .bytes data :: chunks, state, ended =>
    match decoder.feed state data with
    | none => ⟨[], true⟩
    | some (text, state) =>
      let later := remaining chunks state ended
      { later with text := text ++ later.text }

/-- The input that a cursor holds, given the chunks that follow its buffer. -/
def view (chunks : List Chunk) (cursor : Cursor σ) : Whole :=
  let later := remaining decoder chunks cursor.state cursor.ended
  { later with text := cursor.buffer ++ later.text }

end Cursor

section Link
variable {σ : Type} {decoder : Utf8.Decoder σ} {α β : Type}
  {process : α → Text → Except CodecError (Outcome α β)} (finish : α → Except CodecError β)

/-- A whole input is worked through in the same way when a part of it has been used up. -/
lemma Alike.agrees {S : Type} {rel : S → Whole → Prop}
    {first second : Except CodecError (Outcome α β)} {broken : Bool}
    {outcome : Except CodecError (β × S)} (alike : Alike first second)
    (agrees : Agrees rel (fun _ _ => True) outcome (second >>= Whole.resume finish broken)) :
    Agrees rel (fun _ _ => True) outcome (first >>= Whole.resume finish broken) := by
  cases alike with
  | stop | more => exact agrees
  | error =>
    cases agrees with
    | error => exact .error trivial

/-- The cursor over the chunks and its whole text. -/
def Cursor.Views (decoder : Utf8.Decoder σ) (cursor : Cursor σ) (whole : Whole) : Prop :=
  cursor.view decoder cursor.source = whole

variable {finish}

/-- The last buffer: what the decoder still holds has been taken into it. -/
lemma agrees_last {cursor : Cursor σ} (ended : cursor.ended = true) (state : α) :
    Agrees (Cursor.Views decoder) (fun _ _ => True)
      (do
        match ← process state cursor.buffer with
        | .stop result rest held => .ok (result, cursor.stopped [] rest held)
        | .more state held =>
          let result ← finish state
          .ok (result, cursor.stopped [] [] held))
      (process state cursor.buffer >>= Whole.resume finish false) := by
  have viewed : ∀ rest held, (cursor.stopped [] rest held).Views decoder ⟨rest, false⟩ := by
    intro rest held
    simp [Cursor.Views, Cursor.view, Cursor.stopped, Cursor.remaining, ended]
  cases process state cursor.buffer with
  | error fault => exact .error trivial
  | ok outcome =>
    cases outcome with
    | stop result rest held => exact .ok (viewed rest held)
    | more state held =>
      cases final : finish state with
      | error fault =>
        simp only [bind, Except.bind, final, Whole.resume, Bool.false_eq_true, if_false]
        exact .error trivial
      | ok result =>
        simp only [bind, Except.bind, final, Whole.resume, Bool.false_eq_true, if_false]
        exact .ok (viewed [] held)

/-- A cursor stops in its buffer, or it has used the buffer up and goes on. -/
lemma agrees_buffer (splits : Splits process) {chunks : List Chunk} {state : α} {cursor : Cursor σ}
    {goOn : α → Nat → Except CodecError (β × Cursor σ)}
    (later : ∀ next held, Agrees (Cursor.Views decoder) (fun _ _ => True) (goOn next held)
      (process next (Cursor.remaining decoder chunks cursor.state cursor.ended).text >>=
        Whole.resume finish (Cursor.remaining decoder chunks cursor.state cursor.ended).broken)) :
    Agrees (Cursor.Views decoder) (fun _ _ => True)
      (do
        match ← process state cursor.buffer with
        | .stop result rest held => .ok (result, cursor.stopped chunks rest held)
        | .more next held => goOn next held)
      (process state (cursor.view decoder chunks).text >>=
        Whole.resume finish (cursor.view decoder chunks).broken) := by
  cases done : process state cursor.buffer with
  | error fault =>
    obtain ⟨other, failed⟩ := splits.error done
      (Cursor.remaining decoder chunks cursor.state cursor.ended).text
    rw [Cursor.view, failed]
    exact .error trivial
  | ok outcome =>
    cases outcome with
    | stop result rest held => exact (splits.stop done _).agrees finish (.ok rfl)
    | more next held => exact (splits.more done _).agrees finish (later next held)

/-- A cursor works through its chunks as through the whole text. -/
theorem agrees_drive (splits : Splits process) (chunks : List Chunk) (state : α) (cursor : Cursor σ) :
    Agrees (Cursor.Views decoder) (fun _ _ => True)
      (Cursor.drive decoder process finish chunks state cursor)
      (process state (cursor.view decoder chunks).text >>=
        Whole.resume finish (cursor.view decoder chunks).broken) := by
  induction chunks generalizing state cursor with
  | nil =>
    rw [Cursor.drive]
    refine agrees_buffer splits fun next held => ?_
    cases ended : cursor.ended with
    | true =>
      have last : (cursor.stopped [] [] held).loadLast decoder = .ok (cursor.stopped [] [] held) :=
        if_pos ended
      rw [last]
      exact agrees_last (show (cursor.stopped [] [] held).ended = true from ended) next
    | false =>
      have last : (cursor.stopped [] [] held).loadLast decoder = match decoder.flush cursor.state with
          | none => .error invalidUtf8
          | some text => .ok ((cursor.stopped [] [] held).fill text 0 cursor.state true) :=
        if_neg (by simp [Cursor.stopped, ended])
      rw [last, Cursor.remaining, if_neg Bool.false_ne_true]
      cases decoder.flush cursor.state with
      | none =>
        rw [splits.nil]
        exact .error trivial
      | some text => exact agrees_last rfl next
  | cons chunk chunks ih =>
    rw [Cursor.drive]
    refine agrees_buffer splits fun next held => ?_
    cases chunk with
    | text text =>
      exact ih next ((cursor.stopped chunks [] held).fill text (utf8Length text) cursor.state
        cursor.ended)
    | bytes data =>
      have loaded : (cursor.stopped chunks [] held).load decoder (.bytes data) =
          match decoder.feed cursor.state data with
          | none => .error invalidUtf8
          | some (text, state) =>
            .ok ((cursor.stopped chunks [] held).fill text data.length state cursor.ended) := rfl
      rw [loaded, Cursor.remaining]
      cases decoder.feed cursor.state data with
      | none =>
        rw [splits.nil]
        exact .error trivial
      | some decoded =>
        exact ih next ((cursor.stopped chunks [] held).fill decoded.1 data.length decoded.2 cursor.ended)

/-- A cursor and the whole of its input. -/
theorem linked_cursor (decoder : Utf8.Decoder σ) :
    Linked (Cursor.input decoder) Whole.input (Cursor.Views decoder) (fun _ _ => True) where
  refl _ := trivial
  run {_ _ _} finish state {cursor whole} splits views := by
    obtain rfl : cursor.view decoder cursor.source = whole := views
    exact agrees_drive splits cursor.source state cursor

end Link

section Broken

lemma Whole.run_broken {α β : Type} {process : α → Text → Except CodecError (Outcome α β)}
    {finish : α → Except CodecError β} {state : α} {result : β}
    (done : Whole.input.run process finish state whole = .ok (result, next)) :
    next.broken = whole.broken := by
  obtain ⟨outcome, _, done⟩ := bind_eq_ok.mp done
  cases outcome with
  | stop _ rest held =>
    cases done
    rfl
  | more state held =>
    rw [resume] at done
    split at done
    · cases done
    · obtain ⟨_, _, done⟩ := bind_eq_ok.mp done
      cases done
      rfl

/-- The end of a text that cannot be decoded is never reached. -/
lemma Whole.peek_none (done : Whole.input.peek whole = .ok (none, next)) :
    whole.broken = false := by
  obtain ⟨outcome, processed, done⟩ := bind_eq_ok.mp done
  cases text : whole.text with
  | nil =>
    rw [text] at processed
    cases processed
    rw [resume] at done
    split at done
    · cases done
    · rename_i intact
      simpa using intact
  | cons unit rest =>
    rw [text] at processed
    cases processed
    cases done

/-- Every part of the scanner keeps the end of the input as it is. -/
lemma linked_broken : Linked Whole.input Whole.input
    (fun left right => left = right ∧ right.broken = true) (· = ·) where
  refl _ := rfl
  run {α β process} finish state {whole other} _ related := by
    obtain ⟨rfl, broken⟩ := related
    cases done : Whole.input.run process finish state whole with
    | error fault => exact .error rfl
    | ok outcome =>
      obtain ⟨result, next⟩ := outcome
      exact .ok ⟨rfl, (Whole.run_broken done).trans broken⟩

lemma scanDocument_broken {engine : Engine} {limits : CodecLimits} (broken : whole.broken = true)
    {scanned : Scanned} :
    Whole.input.scanDocument engine limits fuel whole ≠ .ok (scanned, next) := by
  intro done
  have kept := linked_broken.scanDocument engine limits fuel ⟨rfl, broken⟩
  rw [done] at kept
  obtain ⟨⟨_, object⟩, _, done⟩ := bind_eq_ok.mp done
  dsimp only at done
  split at done
  · cases done
  obtain ⟨⟨_, skipped⟩, _, done⟩ := bind_eq_ok.mp done
  obtain ⟨⟨last, ended⟩, peeked, done⟩ := bind_eq_ok.mp done
  dsimp only at done
  split at done
  · cases done
  rename_i nothing
  cases done
  obtain rfl : last = none := by simpa using nothing
  have same := Whole.run_broken peeked
  rw [Whole.peek_none peeked] at same
  cases kept with
  | ok related => exact absurd related.2 (by simp [same])

end Broken

/-- What a scan that is accepted yields, apart from the diagnostics. -/
def accepted (outcome : Except CodecError (List NormalizedEntry × ScanResult)) :
    Option (List NormalizedEntry × ScanResult) :=
  match outcome with
  | .ok (entries, result) => some (entries, { result with diagnostics := ⟨0, 0, 0⟩ })
  | .error _ => none

section Cuts
variable {σ : Type} {decoder : Utf8.Decoder σ} {engine : Engine} {limits : CodecLimits}

/-- The result of a scan depends on what has been scanned and, in the diagnostics, on the input. -/
lemma accepted_finish (scanned : Scanned) (limits : CodecLimits) (diagnostics : ScanDiagnostics) :
    accepted (do
        let result ← scanned.accumulator.finish engine limits scanned.document diagnostics
        .ok (scanned.entries, result)) = accepted (do
        let result ← scanned.accumulator.finish engine limits scanned.document ⟨0, 0, 0⟩
        .ok (scanned.entries, result)) := by
  simp only [ScanAccumulator.finish, bind_assoc]
  cases normalizeChangeLogHeader engine limits scanned.document
      scanned.accumulator.primitiveCounts.total with
  | error fault => rfl
  | ok header => rfl

/-- A cursor is scanned as the whole of its input. -/
theorem accepted_scan {cursor : Cursor σ} (views : cursor.Views decoder whole) :
    accepted ((Cursor.input decoder).scan engine limits fuel cursor) =
      accepted (Whole.input.scan engine limits fuel whole) := by
  rw [Source.scan, Source.scan]
  cases resolved : resolveChangeLogCodecLimits limits with
  | error fault => rfl
  | ok limits =>
    have agrees := (linked_cursor decoder).scanDocument engine limits fuel views
    simp only [bind, Except.bind]
    generalize (Cursor.input decoder).scanDocument engine limits fuel cursor = left at agrees ⊢
    generalize Whole.input.scanDocument engine limits fuel whole = right at agrees ⊢
    cases agrees with
    | error => rfl
    | ok related => exact accepted_finish _ limits _

lemma accepted_broken (broken : whole.broken = true) :
    accepted (Whole.input.scan engine limits fuel whole) = none := by
  rw [Source.scan]
  cases resolveChangeLogCodecLimits limits with
  | error fault => rfl
  | ok limits =>
    cases done : Whole.input.scanDocument engine limits fuel whole with
    | error fault => simp only [bind, Except.bind, done, accepted]
    | ok outcome => exact absurd done (scanDocument_broken broken)

lemma remaining_texts (cuts : List Text) (state : σ) (ended : Bool) :
    Cursor.remaining decoder (cuts.map Chunk.text) state ended =
      ⟨cuts.flatten ++ (Cursor.remaining decoder [] state ended).text,
        (Cursor.remaining decoder [] state ended).broken⟩ := by
  induction cuts with
  | nil => rfl
  | cons text cuts ih =>
    simp only [List.map_cons, Cursor.remaining, ih, List.flatten_cons, List.append_assoc]

/-- The whole of a byte sequence that is cut into chunks: it does not depend on the cuts, unless it
cannot be decoded. -/
lemma remaining_bytes (cuts : List (List Byte)) (state : σ) :
    Cursor.remaining decoder (cuts.map Chunk.bytes) state false =
        Cursor.remaining decoder [.bytes cuts.flatten] state false ∨
      (Cursor.remaining decoder (cuts.map Chunk.bytes) state false).broken = true ∧
        (Cursor.remaining decoder [.bytes cuts.flatten] state false).broken = true := by
  induction cuts generalizing state with
  | nil =>
    left
    simp only [List.map_nil, List.flatten_nil, Cursor.remaining, decoder.feed_nil, List.nil_append]
  | cons data cuts ih =>
    cases fed : decoder.feed state data with
    | none =>
      right
      simp only [List.map_cons, List.flatten_cons, Cursor.remaining, decoder.feed_append, fed,
        Option.bind_eq_bind, Option.bind_none, and_self]
    | some decoded =>
      obtain ⟨text, next⟩ := decoded
      have later := ih next
      cases rest : decoder.feed next cuts.flatten with
      | none =>
        simp only [Cursor.remaining, rest] at later
        right
        simp only [List.map_cons, List.flatten_cons, Cursor.remaining, decoder.feed_append, fed, rest,
          Option.bind_eq_bind, Option.bind_some, Option.bind_none, and_true]
        rcases later with same | ⟨broken, _⟩
        · rw [same]
        · exact broken
      | some decoded =>
        obtain ⟨more, last⟩ := decoded
        simp only [List.map_cons, List.flatten_cons, Cursor.remaining, decoder.feed_append, fed, rest,
          Option.bind_eq_bind, Option.bind_some, List.append_assoc] at later ⊢
        rcases later with same | broken
        · left
          rw [same]
        · exact .inr broken

lemma view_start (chunks : List Chunk) :
    (Cursor.start decoder chunks).Views decoder
      (Cursor.remaining decoder chunks decoder.start false) := rfl

lemma accepted_texts (cuts : List Text) :
    accepted ((Cursor.input decoder).scan engine limits fuel
        (Cursor.start decoder (cuts.map Chunk.text))) =
      accepted ((Cursor.input decoder).scan engine limits fuel
        (Cursor.start decoder [.text cuts.flatten])) := by
  rw [accepted_scan (view_start _), accepted_scan (view_start _), remaining_texts]
  rfl

lemma accepted_bytes (cuts : List (List Byte)) :
    accepted ((Cursor.input decoder).scan engine limits fuel
        (Cursor.start decoder (cuts.map Chunk.bytes))) =
      accepted ((Cursor.input decoder).scan engine limits fuel
        (Cursor.start decoder [.bytes cuts.flatten])) := by
  rw [accepted_scan (view_start _), accepted_scan (view_start _)]
  rcases remaining_bytes cuts decoder.start with same | ⟨first, second⟩
  · rw [same]
  · rw [accepted_broken first, accepted_broken second]

lemma size_cuts {α : Type} (chunk : List α → Chunk) (sized : ∀ cut, (chunk cut).size = cut.length)
    (cuts : List (List α)) : ((cuts.map chunk).map Chunk.size).sum = cuts.flatten.length := by
  induction cuts with
  | nil => rfl
  | cons cut cuts ih =>
    simp only [List.map_cons, List.sum_cons, ih, List.flatten_cons, List.length_append, sized]

/-- A scan does not depend on how its text or its bytes are cut. -/
theorem scanChangeLogJson_cuts (decoder : Utf8.Decoder σ) (engine : Engine) (limits : CodecLimits) :
    (∀ first second : List Text, first.flatten = second.flatten →
      accepted (scanChangeLogJson decoder engine limits (first.map .text)) =
        accepted (scanChangeLogJson decoder engine limits (second.map .text))) ∧
    ∀ first second : List (List Byte), first.flatten = second.flatten →
      accepted (scanChangeLogJson decoder engine limits (first.map .bytes)) =
        accepted (scanChangeLogJson decoder engine limits (second.map .bytes)) := by
  constructor
  · intro first second same
    have size := size_cuts Chunk.text fun _ => rfl
    rw [scanChangeLogJson, scanChangeLogJson, size, size, accepted_texts, accepted_texts, same]
  · intro first second same
    have size := size_cuts Chunk.bytes fun _ => rfl
    rw [scanChangeLogJson, scanChangeLogJson, size, size, accepted_bytes, accepted_bytes, same]

section Inputs

def fingerprintText : Text :=
  ascii "\x7b\"byteLength\":0," ++ ascii "\"digest\":\x7b\"algorithm\":\"a\"," ++
    ascii "\"value\":\"0\"\x7d\x7d"

/-- The members of the header of a complete log. -/
def headerText (changeCount : String) : Text :=
  ascii "\"format\":\"omega-edit.change-log\"," ++ ascii "\"version\":2,\"complete\":true," ++
    ascii "\"changeCount\":" ++ ascii changeCount ++ ascii ",\"sourceChangeCount\":" ++
    ascii changeCount ++ ascii ",\"unavailableChangeCount\":0," ++
    ascii "\"unavailableChangeSerials\":[]," ++
    ascii "\"before\":" ++ fingerprintText ++ ascii ",\"after\":" ++ fingerprintText

/-- A log of a tracked insertion and a transform, up to the first digit of an offset. -/
def logHead : Text :=
  ascii "\x7b" ++ headerText "2" ++ ascii ",\"changes\":[\x7b\"kind\":\"INSERT\",\"offset\":1"

/-- From there on up to the middle of an escape in the name of the group. -/
def logMiddle : Text :=
  ascii "0,\"length\":1,\"data\":\"41\",\"serial\":1,\"groupId\":\"\\u00"

/-- What follows the name, which ends in a character of two bytes. -/
def logTail : Text :=
  ascii "\"\x7d,\x7b\"kind\":\"TRANSFORM\",\"offset\":0,\"length\":1,\"serial\":2,\"data\":" ++
    ascii "\"7b227472616e73666f726d4964223a2261227d\"\x7d]\x7d"

def plainText : Text := logHead ++ logMiddle ++ ascii "67" ++ 0xe9 :: logTail

/-- The bytes of the log, cut inside the offset, the escape and the character. -/
def logBytes : List (List Byte) :=
  [logHead.map UInt16.toUInt8, logMiddle.map UInt16.toUInt8, [0x36, 0x37, 0xc3], [],
    0xa9 :: logTail.map UInt16.toUInt8]

/-- The cut texts and bytes are accepted, as the whole ones are. -/
theorem scanChangeLogJson_cut_inside :
    let scan (chunks : List Chunk) :=
      accepted (scanChangeLogJson Utf8.decoder .canonical defaultCodecLimits chunks)
    scan [.text logHead, .text logMiddle, .text (ascii "67" ++ 0xe9 :: logTail)] =
        scan [.text plainText] ∧
      scan (logBytes.map .bytes) = scan [.bytes logBytes.flatten] ∧
      (scan [.text plainText]).map (fun found => found.1.map (·.kind)) =
        some [.insert, .transform] ∧
      scan [.bytes logBytes.flatten] = scan [.text plainText] := by
  intro scan
  have cuts := scanChangeLogJson_cuts Utf8.decoder .canonical defaultCodecLimits
  refine ⟨cuts.1 [logHead, logMiddle, ascii "67" ++ 0xe9 :: logTail] [plainText] ?_,
    cuts.2 logBytes [logBytes.flatten] ?_, by decide +kernel, by decide +kernel⟩
  · simp only [plainText, List.flatten_cons, List.flatten_nil, List.append_nil, List.append_assoc]
  · rw [List.flatten_singleton]

end Inputs

end Cuts

end OmegaEdit.ChangeLog
