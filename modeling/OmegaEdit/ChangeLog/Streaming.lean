import OmegaEdit.Library.JsonObject
import OmegaEdit.ChangeLog.Tokens

/-! The scanner reads a document as the grammar does: what it accepts is the spelling of an
object without repeated names, and it takes the members of such an object one after the
other. `takeMembers` says what it does with the members, without their spelling. -/
namespace OmegaEdit.ChangeLog
open Transition (bind_eq_ok)
open Utf16 Json
variable {unit : CodeUnit} {space rest text raw tail spelled name property : Text} {next : Whole}
  {mode : RawMode} {value written : Value} {entry : NormalizedEntry} {fuel : Nat}
  {entries : List NormalizedEntry} {scanned : Scanned} {members : List Member}

abbrev Whole.of (text : Text) : Whole := ⟨text, false⟩

section Operations

@[simp] lemma whole_peek (text : Text) :
    Whole.input.peek (.of text) = .ok (text.head?, .of text) := by
  cases text <;> rfl

@[simp] lemma whole_take (text : Text) :
    Whole.input.take (.of text) = .ok (text.head?, .of text.tail) := by
  cases text <;> rfl

lemma whole_take_cons (unit : CodeUnit) (text : Text) :
    Whole.input.take (.of (unit :: text)) = .ok (some unit, .of text) := rfl

@[simp] lemma whole_skipWhitespace (text : Text) :
    Whole.input.skipWhitespace (.of text) = .ok ((), .of (skipSpaces text)) := by
  show (_ >>= Whole.resume _ false) = _
  dsimp only
  cases skipSpaces text <;> rfl

lemma expect_spaces {context : String} (spaces : Spaces space) (notSpace : isSpace unit = false) :
    Whole.input.expect unit context (.of (space ++ unit :: rest)) = .ok ((), .of rest) := by
  rw [Source.expect, whole_skipWhitespace, skipSpaces_append spaces (starts_cons notSpace)]
  simp [bind, Except.bind]

lemma expect_sound {context : String}
    (done : Whole.input.expect unit context (.of text) = .ok ((), next)) :
    ∃ space rest, Spaces space ∧ text = space ++ unit :: rest ∧ next = .of rest := by
  obtain ⟨space, spaces, whole, _⟩ := skipSpaces_spec text
  rw [Source.expect, whole_skipWhitespace] at done
  cases skipped : skipSpaces text with
  | nil =>
    rw [skipped] at done
    cases done
  | cons first rest =>
    rw [skipped] at done whole
    simp only [bind, Except.bind, whole_take, List.head?_cons, List.tail_cons] at done
    split at done
    · cases done
    · rename_i same
      obtain rfl : first = unit := by simpa using same
      cases done
      exact ⟨space, rest, spaces, whole, rfl⟩

end Operations

section Values
variable {maxChars maxNesting : Nat} {context : String}

/-- A raw value that has been gathered is the front of the text. -/
lemma run_raw_sound
    (done : Whole.input.run (gatherRaw mode maxChars maxNesting context) (endRaw mode context)
      ⟨.initial, []⟩ (.of text) = .ok (raw, next)) :
    ∃ rest, next = .of rest ∧ text = raw ++ rest := by
  obtain ⟨outcome, gathered, done⟩ := bind_eq_ok.mp done
  rw [gatherRaw_eq] at gathered
  obtain ⟨scanned, scan, gathered⟩ := bind_eq_ok.mp gathered
  obtain ⟨split, nothing⟩ := scanUnits_split scan
  rw [RawPiece.outcome] at gathered
  split at gathered
  · cases gathered
  split at gathered
  · cases gathered
    cases done
    exact ⟨scanned.rest, rfl, split⟩
  · rename_i open_
    cases gathered
    obtain ⟨final, ended, done⟩ := bind_eq_ok.mp done
    cases done
    rw [endRaw] at ended
    split at ended
    · cases ended
      rw [nothing open_] at split
      exact ⟨[], rfl, split⟩
    · cases ended

/-- A value that the scanner cuts is gathered, if it is small enough. -/
lemma run_raw_complete (cuts : Cuts mode maxNesting context raw rest)
    (small : raw.length ≤ maxChars) :
    Whole.input.run (gatherRaw mode maxChars maxNesting context) (endRaw mode context)
      ⟨.initial, []⟩ (.of (raw ++ rest)) = .ok (raw, .of rest) := by
  obtain ⟨state, cut⟩ := cuts
  have run : Whole.input.run (gatherRaw mode maxChars maxNesting context) (endRaw mode context)
      ⟨.initial, []⟩ (.of (raw ++ rest)) =
        (scanUnits mode maxNesting context .initial (raw ++ rest) >>= fun scanned =>
          scanned.outcome maxChars context ⟨.initial, []⟩) >>=
            Whole.resume (endRaw mode context) false := rfl
  have short : ¬ RawPiece.held ⟨state, raw, rest, true⟩ ⟨.initial, []⟩ > maxChars := by
    rw [RawPiece.held]
    split
    · exact Nat.not_lt_zero _
    · exact not_lt.mpr small
  rw [run, cut]
  simp only [bind, Except.bind, RawPiece.outcome, if_neg short]
  rfl

lemma readRawValue_sound
    (done : Whole.input.readRawValue maxChars maxNesting context (.of text) = .ok (raw, next)) :
    ∃ space rest, Spaces space ∧ next = .of rest ∧ text = space ++ raw ++ rest := by
  obtain ⟨space, spaces, whole, _⟩ := skipSpaces_spec text
  rw [Source.readRawValue, whole_skipWhitespace] at done
  simp only [bind, Except.bind, whole_peek] at done
  cases first : (skipSpaces text).head? with
  | none =>
    rw [first] at done
    cases done
  | some first =>
    simp only [first] at done
    obtain ⟨⟨gathered, left⟩, run, done⟩ := bind_eq_ok.mp done
    dsimp only at done
    split at done
    · cases done
    · cases done
      obtain ⟨rest, rfl, split⟩ := run_raw_sound run
      rw [split, ← List.append_assoc] at whole
      exact ⟨space, rest, spaces, rfl, whole⟩

lemma readRawValue_complete {first : CodeUnit} (spaces : Spaces space)
    (starts : raw = first :: tail) (notSpace : isSpace first = false)
    (cuts : Cuts (RawMode.of first) maxNesting context raw rest) (small : raw.length ≤ maxChars) :
    Whole.input.readRawValue maxChars maxNesting context (.of (space ++ raw ++ rest)) =
      .ok (raw, .of rest) := by
  have skipped : skipSpaces (space ++ raw ++ rest) = raw ++ rest := by
    rw [List.append_assoc, starts]
    exact skipSpaces_append spaces (starts_cons notSpace)
  have head : (raw ++ rest).head? = some first := by rw [starts]; rfl
  rw [Source.readRawValue, whole_skipWhitespace, skipped]
  simp only [bind, Except.bind, whole_peek, head, run_raw_complete cuts small]
  simp [starts]

/-- What follows a value starts with a delimiter. -/
def Delimited (rest : Text) : Prop := ∃ unit later, rest = unit :: later ∧ isDelimiter unit = true

lemma delimited_spaces (spaces : Spaces space) (delimiter : isDelimiter unit = true) :
    Delimited (space ++ unit :: rest) := by
  cases space with
  | nil => exact ⟨unit, rest, rfl, delimiter⟩
  | cons first space =>
    refine ⟨first, space ++ unit :: rest, rfl, ?_⟩
    rw [isDelimiter, spaces first (by simp), Bool.or_true]

lemma readParsed_sound {engine : Engine} {label : String}
    (done : Whole.input.readRawValue maxChars maxNesting context (.of text) = .ok (raw, next))
    (parsed : parseRawJson engine raw label = .ok value) :
    ∃ space spelled gap rest written, Spaces space ∧ Spaces gap ∧ next = .of rest ∧
      Spells (.value written) spelled ∧ written.NoRepeats ∧ value = written.collapse ∧
      text = space ++ spelled ++ gap ++ rest := by
  obtain ⟨space, rest, spaces, rfl, rfl⟩ := readRawValue_sound done
  obtain ⟨written, ⟨before, spelled, gap, befores, gaps, spells, rfl⟩, good, rfl⟩ :=
    parseRawJson_eq_ok.mp parsed
  refine ⟨space ++ before, spelled, gap, rest, written, spaces.append befores, gaps, rfl, spells, good,
    rfl, ?_⟩
  simp only [List.append_assoc]

lemma readRawValue_spelled (spaces : Spaces space) (spells : Spells (.value written) spelled)
    (flat : written.nesting ≤ maxNesting) (small : spelled.length ≤ maxChars)
    (delimited : Delimited rest) :
    Whole.input.readRawValue maxChars maxNesting context (.of (space ++ spelled ++ rest)) =
      .ok (spelled, .of rest) := by
  obtain ⟨first, tail, starts, opens⟩ := spells.opens
  exact readRawValue_complete spaces starts opens.notSpace (cuts_value spells starts flat delimited) small

lemma parseRawJson_spelled {engine : Engine} (spells : Spells (.value written) spelled)
    (good : written.NoRepeats) :
    parseRawJson engine spelled context = .ok written.collapse :=
  parseRawJson_eq_ok.mpr ⟨written, ⟨[], spelled, [], Spaces.nil, Spaces.nil, spells, by simp⟩, good, rfl⟩

end Values

section Delimiters
variable {close : CodeUnit} {container expected trailing : String}

lemma readDelimiter_sound {more : Bool}
    (done : Whole.input.readDelimiter close container expected trailing (.of text) = .ok (more, next)) :
    ∃ space, Spaces space ∧
      (more = false ∧ (∃ rest, next = .of rest ∧ text = space ++ close :: rest) ∨
        more = true ∧ ∃ gap rest, Spaces gap ∧ next = .of rest ∧ text = space ++ comma :: gap ++ rest) := by
  obtain ⟨space, spaces, whole, _⟩ := skipSpaces_spec text
  refine ⟨space, spaces, ?_⟩
  rw [Source.readDelimiter, whole_skipWhitespace] at done
  cases skipped : skipSpaces text with
  | nil =>
    rw [skipped] at done
    cases done
  | cons unit rest =>
    rw [skipped] at done whole
    simp only [bind, Except.bind, whole_take_cons, whole_skipWhitespace, whole_peek, ne_eq,
      Option.some.injEq] at done
    by_cases same : unit = close
    · rw [if_pos same] at done
      cases done
      exact .inl ⟨rfl, rest, rfl, by rw [← same, whole]⟩
    rw [if_neg same] at done
    by_cases isComma : unit = comma
    · subst isComma
      rw [if_neg (not_not.mpr rfl)] at done
      by_cases ends : (skipSpaces rest).head? = some close
      · rw [if_pos ends] at done
        cases done
      rw [if_neg ends] at done
      cases done
      obtain ⟨gap, gaps, split, _⟩ := skipSpaces_spec rest
      refine .inr ⟨rfl, gap, skipSpaces rest, gaps, rfl, ?_⟩
      rw [whole, List.append_assoc, List.cons_append, ← split]
    · rw [if_pos isComma] at done
      cases done

lemma readDelimiter_close (spaces : Spaces space) (notSpace : isSpace close = false) :
    Whole.input.readDelimiter close container expected trailing (.of (space ++ close :: rest)) =
      .ok (false, .of rest) := by
  rw [Source.readDelimiter, whole_skipWhitespace, skipSpaces_append spaces (starts_cons notSpace)]
  simp [bind, Except.bind]

lemma readDelimiter_comma {gap later : Text} (spaces : Spaces space) (gaps : Spaces gap)
    (starts : later = unit :: tail) (notSpace : isSpace unit = false) (notClose : unit ≠ close)
    (other : close ≠ comma) :
    Whole.input.readDelimiter close container expected trailing
      (.of (space ++ comma :: (gap ++ (later ++ rest)))) = .ok (true, .of (later ++ rest)) := by
  subst starts
  rw [Source.readDelimiter, whole_skipWhitespace, skipSpaces_append spaces (starts_cons (by decide))]
  simp only [bind, Except.bind, whole_take, whole_skipWhitespace, whole_peek, List.head?_cons,
    List.tail_cons, List.cons_append, skipSpaces_append gaps (starts_cons notSpace)]
  rw [if_neg (fun same => other (Option.some.inj same).symm), if_neg (not_not.mpr rfl),
    if_neg (fun same => notClose (Option.some.inj same))]

end Delimiters

section Entries
variable {engine : Engine} {limits : CodecLimits} {index : Nat}
  {accumulator updated : ScanAccumulator}

lemma readEntry_sound (done : Whole.input.readEntry engine limits index accumulator (.of text) =
      .ok ((entry, updated), next)) :
    ∃ space spelled gap rest written, Spaces space ∧ Spaces gap ∧ next = .of rest ∧
      Spells (.value written) spelled ∧ written.NoRepeats ∧ text = space ++ spelled ++ gap ++ rest ∧
      normalizeChangeLogEntry engine limits written.collapse index = .ok entry ∧
      accumulator.accept limits entry index = .ok updated := by
  obtain ⟨⟨raw, left⟩, read, done⟩ := bind_eq_ok.mp done
  obtain ⟨value, parsed, done⟩ := bind_eq_ok.mp done
  obtain ⟨_, _, done⟩ := bind_eq_ok.mp done
  obtain ⟨found, normalized, done⟩ := bind_eq_ok.mp done
  obtain ⟨next, accepted, done⟩ := bind_eq_ok.mp done
  cases done
  obtain ⟨space, spelled, gap, rest, written, spaces, gaps, left, spells, good, rfl, split⟩ :=
    readParsed_sound read parsed
  exact ⟨space, spelled, gap, rest, written, spaces, gaps, left, spells, good, split, normalized,
    accepted⟩

/-- An entry that does not exceed the limits of the scanner. -/
def ElementFits (limits : CodecLimits) (element : Element) : Prop :=
  element.raw.length ≤ limits.maxEntryChars ∧ element.value.nesting ≤ limits.maxNesting

lemma readEntry_complete {element : Element} (spaces : Spaces space)
    (spells : Spells (.value element.value) element.raw) (good : element.value.NoRepeats)
    (fits : ElementFits limits element) (delimited : Delimited rest)
    (normalized : normalizeChangeLogEntry engine limits element.value.collapse index = .ok entry)
    (taken : accumulator.accept limits entry index = .ok updated) :
    Whole.input.readEntry engine limits index accumulator (.of (space ++ element.raw ++ rest)) =
      .ok ((entry, updated), .of rest) := by
  obtain ⟨_, valid, _⟩ := bind_eq_ok.mp normalized
  rw [Source.readEntry, readRawValue_spelled spaces spells fits.2 fits.1 delimited]
  simp only [bind, Except.bind, parseRawJson_spelled spells good, valid, normalized, taken]

/-- The entries that are scanned are the elements that the text spells. -/
lemma scanEntries_sound
    (done : Whole.input.scanEntries engine limits fuel index accumulator (.of text) =
      .ok ((entries, updated), next)) :
    ∃ space spelled rest elements, Spaces space ∧ next = .of rest ∧
      Spells (.elements elements) spelled ∧ NoRepeatsElements elements ∧
      text = space ++ spelled ++ rest ∧
      normalizeEntries engine limits accumulator index (collapseElements elements) =
        .ok (entries, updated) := by
  induction fuel generalizing index accumulator entries text with
  | zero => cases done
  | succ fuel ih =>
    obtain ⟨⟨⟨entry, taken⟩, left⟩, read, continued⟩ := bind_eq_ok.mp done
    obtain ⟨⟨more, after⟩, delimiter, finished⟩ := bind_eq_ok.mp continued
    clear done continued
    obtain ⟨space, spelled, gap, rest, written, spaces, gaps, rfl, spells, good, rfl, normalized,
      accepted⟩ := readEntry_sound read
    obtain ⟨around, arounds, ⟨rfl, last, rfl, rfl⟩ | ⟨rfl, between, later, betweens, rfl, rfl⟩⟩ :=
      readDelimiter_sound delimiter
    · cases finished
      refine ⟨space, _, last, [written], spaces, rfl,
        .lastElement spells (gaps.append arounds), ⟨good, trivial⟩, ?_, ?_⟩
      · simp only [List.append_assoc, List.singleton_append]
      · simp only [collapseElements, normalizeEntries, bind, Except.bind, normalized, accepted]
    · obtain ⟨⟨⟨others, final⟩, left⟩, scanned, finished⟩ := bind_eq_ok.mp finished
      cases finished
      obtain ⟨inner, others, rest, elements, inners, rfl, spelledOthers, goods, rfl, rests⟩ := ih scanned
      refine ⟨space, _, rest, written :: elements, spaces, rfl,
        .element spells (gaps.append arounds) (betweens.append inners) spelledOthers,
        ⟨good, goods⟩, ?_, ?_⟩
      · simp only [List.append_assoc, List.cons_append]
      · simp only [collapseElements, normalizeEntries, bind, Except.bind, normalized, accepted, rests]

lemma scanEntries_complete {elements : List Element} (rest : Text)
    (laid : LaidElements elements spelled) (goods : NoRepeatsElements (elements.map Element.value))
    (fits : ∀ element ∈ elements, ElementFits limits element) (enough : spelled.length ≤ fuel)
    (normalized : normalizeEntries engine limits accumulator index
      (collapseElements (elements.map Element.value)) = .ok (entries, updated)) :
    Whole.input.scanEntries engine limits fuel index accumulator (.of (spelled ++ rest)) =
      .ok ((entries, updated), .of rest) := by
  induction laid generalizing index accumulator entries fuel with
  | @last element space spells spaces =>
    obtain ⟨entry, normal, normalized⟩ := bind_eq_ok.mp normalized
    obtain ⟨taken, accepted, normalized⟩ := bind_eq_ok.mp normalized
    cases normalized
    cases fuel with
    | zero => simp at enough
    | succ fuel =>
      have delimited : Delimited (space ++ closeBracket :: rest) :=
        delimited_spaces spaces (by decide)
      have split : element.raw ++ space ++ [closeBracket] ++ rest =
          [] ++ element.raw ++ (space ++ closeBracket :: rest) := by simp
      rw [split, Source.scanEntries, readEntry_complete Spaces.nil spells goods.1 (fits _ (by simp))
        delimited normal accepted]
      simp only [bind, Except.bind, readDelimiter_close spaces (by decide : isSpace closeBracket = false)]
      rfl
  | @cons element elements space gap tail spells spaces gaps others ih =>
    obtain ⟨entry, normal, normalized⟩ := bind_eq_ok.mp normalized
    obtain ⟨taken, accepted, normalized⟩ := bind_eq_ok.mp normalized
    obtain ⟨⟨later, final⟩, rests, normalized⟩ := bind_eq_ok.mp normalized
    cases normalized
    cases fuel with
    | zero => simp at enough
    | succ fuel =>
      have delimited : Delimited (space ++ comma :: (gap ++ (tail ++ rest))) :=
        delimited_spaces spaces (by decide)
      have split : element.raw ++ space ++ comma :: gap ++ tail ++ rest =
          [] ++ element.raw ++ (space ++ comma :: (gap ++ (tail ++ rest))) := by simp
      obtain ⟨unit, after, starts, opens⟩ := others.spells.opens
      have shorter : tail.length ≤ fuel := by
        simp only [List.length_append, List.length_cons] at enough
        omega
      rw [List.forall_mem_cons] at fits
      rw [split, Source.scanEntries, readEntry_complete Spaces.nil spells goods.1 fits.1 delimited normal
        accepted]
      simp only [bind, Except.bind, ih goods.2 fits.2 shorter rests,
        readDelimiter_comma spaces gaps starts opens.notSpace (opens.ne (.inl rfl)) (by decide)]
      rfl

lemma scanChanges_sound (done : Whole.input.scanChanges engine limits fuel accumulator (.of text) =
      .ok ((entries, updated), next)) :
    ∃ space spelled rest elements, Spaces space ∧ next = .of rest ∧
      Spells (.value (.array elements)) spelled ∧ (Value.array elements).NoRepeats ∧
      text = space ++ spelled ++ rest ∧
      normalizeEntries engine limits accumulator 0 (collapseElements elements) =
        .ok (entries, updated) := by
  obtain ⟨⟨_, opened⟩, expected, done⟩ := bind_eq_ok.mp done
  obtain ⟨space, after, spaces, rfl, rfl⟩ := expect_sound expected
  obtain ⟨inner, inners, split, _⟩ := skipSpaces_spec after
  simp only [bind, Except.bind, whole_skipWhitespace, whole_peek] at done
  by_cases ends : (skipSpaces after).head? = some closeBracket
  · obtain ⟨rest, skipped⟩ := List.head?_eq_some_iff.mp ends
    rw [if_pos ends, skipped, whole_take_cons] at done
    cases done
    refine ⟨space, _, rest, [], spaces, rfl, .emptyArray inners, trivial, ?_, rfl⟩
    rw [split, skipped]
    simp only [List.append_assoc, List.cons_append, List.nil_append]
  · rw [if_neg ends] at done
    obtain ⟨more, spelled, rest, elements, mores, rfl, spells, goods, split', normalized⟩ :=
      scanEntries_sound done
    refine ⟨space, _, rest, elements, spaces, rfl, .array (inners.append mores) spells, goods, ?_,
      normalized⟩
    rw [split, split']
    simp only [List.append_assoc, List.cons_append]

/-- The entries of an array that do not exceed the limits of the scanner. -/
def ChangesFit (limits : CodecLimits) (raw : Text) : Prop :=
  ∀ space inner elements, Spaces space → raw = openBracket :: space ++ inner →
    LaidElements elements inner → ∀ element ∈ elements, ElementFits limits element

lemma scanChanges_complete {elements : List Value} (rest : Text) (spaces : Spaces space)
    (spells : Spells (.value (.array elements)) spelled) (goods : (Value.array elements).NoRepeats)
    (fits : ChangesFit limits spelled) (enough : spelled.length ≤ fuel)
    (normalized : normalizeEntries engine limits accumulator 0 (collapseElements elements) =
      .ok (entries, updated)) :
    Whole.input.scanChanges engine limits fuel accumulator (.of (space ++ spelled ++ rest)) =
      .ok ((entries, updated), .of rest) := by
  cases spells with
  | word known => rcases wordValue_cases known with same | ⟨_, same⟩ | same <;> cases same
  | @emptyArray inner inners =>
    cases normalized
    have split : space ++ (openBracket :: inner ++ [closeBracket]) ++ rest =
        space ++ openBracket :: (inner ++ closeBracket :: rest) := by simp
    rw [split, Source.scanChanges, expect_spaces spaces (by decide)]
    simp only [bind, Except.bind, whole_skipWhitespace, whole_peek]
    rw [skipSpaces_append inners (starts_cons (by decide))]
    rfl
  | @array _ inner raw inners spells =>
    obtain ⟨unit, tail, starts, opens⟩ := spells.opens
    obtain ⟨laidElements, rfl, laid⟩ := spells.laid
    have split : space ++ (openBracket :: inner ++ raw) ++ rest =
        space ++ openBracket :: (inner ++ (raw ++ rest)) := by simp
    have skipped : skipSpaces (inner ++ (raw ++ rest)) = raw ++ rest :=
      skipSpaces_append inners spells.starts
    have notClose : ¬ (raw ++ rest).head? = some closeBracket := by
      rw [starts]
      exact fun same => opens.ne (.inl rfl) (Option.some.inj same)
    have shorter : raw.length ≤ fuel := by
      simp only [List.length_append, List.length_cons] at enough
      omega
    rw [split, Source.scanChanges, expect_spaces spaces (by decide)]
    simp only [bind, Except.bind, whole_skipWhitespace, whole_peek]
    rw [skipped, if_neg notClose]
    exact scanEntries_complete rest laid goods (fits inner raw laidElements inners rfl laid) shorter
      normalized

end Entries

section Members
variable (engine : Engine) (limits : CodecLimits)

/-- What the scanner does with a member. -/
def takeMember (scanned : Scanned) (member : Text × Value) : Except CodecError Scanned :=
  let (name, value) := member
  if name ∈ scanned.seenProperties then
    .error ⟨"CHANGE_LOG_DUPLICATE_PROPERTY",
      "Change log property " ++ display (quoteText name) ++ " is duplicated"⟩
  else
    let scanned := { scanned with seenProperties := name :: scanned.seenProperties }
    if name = ascii "changes" then
      match value with
      | .array changes => do
        let (entries, accumulator) ← normalizeEntries engine limits scanned.accumulator 0 changes
        .ok { scanned with sawChanges := true, entries, accumulator }
      | _ => .error (invalidJson "Change log changes: expected \"[\"")
    else do
      validateChangeLogJsonValue limits ("Change log " ++ display name) 0 value
      .ok { scanned with document := scanned.document.assign name value }

def takeMembers : Scanned → List (Text × Value) → Except CodecError Scanned
  | scanned, [] => .ok scanned
  | scanned, member :: rest => do
    let scanned ← takeMember engine limits scanned member
    takeMembers scanned rest

variable {engine limits}

lemma collapse_eq_string (same : written.collapse = .string text) :
    written = .string text := by
  cases written with
  | array elements | object members | null | bool flag | number lexeme => cases same
  | string text => exact same

lemma readPropertyName_sound
    (done : Whole.input.readPropertyName engine limits (.of text) = .ok (name, next)) :
    ∃ space key gap rest, Spaces space ∧ Spaces gap ∧ next = .of rest ∧ Chars name key ∧
      text = space ++ (quote :: key ++ [quote]) ++ gap ++ rest := by
  obtain ⟨⟨raw, left⟩, read, done⟩ := bind_eq_ok.mp done
  obtain ⟨value, parsed, done⟩ := bind_eq_ok.mp done
  cases value with
  | string found =>
    cases done
    obtain ⟨space, spelled, gap, rest, written, spaces, gaps, rfl, spells, _, same, rfl⟩ :=
      readParsed_sound read parsed
    obtain rfl := collapse_eq_string same.symm
    cases spells with
    | word known => rcases wordValue_cases known with same | ⟨_, same⟩ | same <;> cases same
    | string chars => exact ⟨space, _, gap, rest, spaces, gaps, rfl, chars, rfl⟩
  | _ => cases done

lemma readPropertyName_complete {key : Text} (rest : Text) (spaces : Spaces space)
    (named : Chars name key) (small : key.length + 2 ≤ min limits.maxHeaderValueChars 65536) :
    Whole.input.readPropertyName engine limits (.of (space ++ (quote :: key ++ [quote]) ++ rest)) =
      .ok (name, .of rest) := by
  have read : Whole.input.readRawValue (min limits.maxHeaderValueChars 65536)
      limits.maxNesting "Change log property name" (.of (space ++ (quote :: key ++ [quote]) ++ rest)) =
      .ok (quote :: key ++ [quote], .of rest) :=
    readRawValue_complete spaces rfl (by decide) (cuts_string named rest) (by
      simp only [List.cons_append, List.length_cons, List.length_append, List.length_nil]
      omega)
  rw [Source.readPropertyName, read]
  simp only [bind, Except.bind, parseRawJson_spelled (.string named) trivial]
  rfl

lemma readHeaderValue_sound
    (done : Whole.input.readHeaderValue engine limits property (.of text) = .ok (value, next)) :
    ∃ space spelled gap rest written, Spaces space ∧ Spaces gap ∧ next = .of rest ∧
      Spells (.value written) spelled ∧ written.NoRepeats ∧ value = written.collapse ∧
      text = space ++ spelled ++ gap ++ rest ∧
      validateChangeLogJsonValue limits ("Change log " ++ display property) 0 value = .ok () := by
  obtain ⟨⟨raw, left⟩, read, done⟩ := bind_eq_ok.mp done
  obtain ⟨found, parsed, done⟩ := bind_eq_ok.mp done
  obtain ⟨_, valid, done⟩ := bind_eq_ok.mp done
  cases done
  obtain ⟨space, spelled, gap, rest, written, spaces, gaps, left, spells, good, same, split⟩ :=
    readParsed_sound read parsed
  exact ⟨space, spelled, gap, rest, written, spaces, gaps, left, spells, good, same, split, valid⟩

lemma readHeaderValue_complete (spaces : Spaces space) (spells : Spells (.value written) spelled)
    (good : written.NoRepeats) (small : spelled.length ≤ limits.maxHeaderValueChars)
    (flat : written.nesting ≤ limits.maxNesting) (delimited : Delimited rest)
    (valid : validateChangeLogJsonValue limits ("Change log " ++ display property) 0 written.collapse =
      .ok ()) :
    Whole.input.readHeaderValue engine limits property (.of (space ++ spelled ++ rest)) =
      .ok (written.collapse, .of rest) := by
  rw [Source.readHeaderValue, readRawValue_spelled spaces spells flat small delimited]
  simp only [bind, Except.bind, parseRawJson_spelled spells good, valid]

lemma scanProperty_sound {updated : Scanned}
    (done : Whole.input.scanProperty engine limits fuel scanned (.of text) = .ok (updated, next)) :
    ∃ space name key before after spelled gap rest written, Spaces space ∧ Chars name key ∧
      Spaces before ∧ Spaces after ∧ Spells (.value written) spelled ∧ Spaces gap ∧
      next = .of rest ∧ written.NoRepeats ∧
      text = space ++ (quote :: key ++ [quote] ++ before ++ colon :: after ++ spelled) ++ gap ++ rest ∧
      takeMember engine limits scanned (name, written.collapse) = .ok updated := by
  obtain ⟨⟨name, left⟩, read, continued⟩ := bind_eq_ok.mp done
  clear done
  obtain ⟨space, key, before, rest, spaces, befores, rfl, named, rfl⟩ := readPropertyName_sound read
  dsimp only at continued
  by_cases seen : name ∈ scanned.seenProperties
  · rw [if_pos seen] at continued
    cases continued
  rw [if_neg seen] at continued
  obtain ⟨⟨_, marked⟩, expected, continued⟩ := bind_eq_ok.mp continued
  obtain ⟨mark, later, marks, rfl, rfl⟩ := expect_sound expected
  dsimp only at continued
  by_cases isChanges : name = ascii "changes"
  · rw [if_pos isChanges] at continued
    obtain ⟨⟨⟨entries, accumulator⟩, last⟩, changes, finished⟩ := bind_eq_ok.mp continued
    cases finished
    obtain ⟨after, spelled, rest, elements, afters, rfl, spells, good, rfl, normalized⟩ :=
      scanChanges_sound changes
    refine ⟨space, name, key, before ++ mark, after, spelled, [], rest, .array elements, spaces, named,
      befores.append marks, afters, spells, Spaces.nil, rfl, good, ?_, ?_⟩
    · simp only [List.append_assoc, List.cons_append, List.nil_append]
    · simp only [takeMember, if_neg seen, if_pos isChanges, Value.collapse, bind, Except.bind, normalized]
  · rw [if_neg isChanges] at continued
    obtain ⟨⟨value, last⟩, header, finished⟩ := bind_eq_ok.mp continued
    cases finished
    obtain ⟨after, spelled, gap, rest, written, afters, gaps, rfl, spells, good, rfl, rfl, valid⟩ :=
      readHeaderValue_sound header
    refine ⟨space, name, key, before ++ mark, after, spelled, gap, rest, written, spaces, named,
      befores.append marks, afters, spells, gaps, rfl, good, ?_, ?_⟩
    · simp only [List.append_assoc, List.cons_append, List.nil_append]
    · simp only [takeMember, if_neg seen, if_neg isChanges, bind, Except.bind, valid]

/-- A member that does not exceed the limits of the scanner. -/
def MemberFits (limits : CodecLimits) (member : Member) : Prop :=
  member.key.length + 2 ≤ min limits.maxHeaderValueChars 65536 ∧
    if member.name = ascii "changes" then ChangesFit limits member.raw
    else member.raw.length ≤ limits.maxHeaderValueChars ∧ member.value.nesting ≤ limits.maxNesting

lemma scanProperty_complete {updated : Scanned} {member : Member} {before after : Text}
    (named : Chars member.name member.key) (befores : Spaces before) (afters : Spaces after)
    (spells : Spells (.value member.value) member.raw) (good : member.value.NoRepeats)
    (fits : MemberFits limits member) (delimited : Delimited rest)
    (enough : member.raw.length ≤ fuel)
    (taken : takeMember engine limits scanned (member.name, member.value.collapse) = .ok updated) :
    Whole.input.scanProperty engine limits fuel scanned
      (.of (quote :: member.key ++ [quote] ++ before ++ colon :: after ++ member.raw ++ rest)) =
      .ok (updated, .of rest) := by
  obtain ⟨name, key, raw, written⟩ := member
  rw [takeMember] at taken
  by_cases seen : name ∈ scanned.seenProperties
  · rw [if_pos seen] at taken
    cases taken
  rw [if_neg seen] at taken
  have split : quote :: key ++ [quote] ++ before ++ colon :: after ++ raw ++ rest =
      [] ++ (quote :: key ++ [quote]) ++ (before ++ colon :: (after ++ raw ++ rest)) := by
    simp only [List.append_assoc, List.cons_append, List.nil_append]
  have marked : ∀ context, Whole.input.expect colon context
      (.of (before ++ colon :: (after ++ raw ++ rest))) = .ok ((), .of (after ++ raw ++ rest)) :=
    fun context => expect_spaces befores (by decide)
  rw [split, Source.scanProperty, readPropertyName_complete _ Spaces.nil named fits.1]
  simp only [bind, Except.bind, marked]
  rw [if_neg seen]
  have within := fits.2
  by_cases isChanges : name = ascii "changes"
  · rw [if_pos isChanges] at taken within ⊢
    cases written with
    | array elements =>
      obtain ⟨⟨entries, accumulator⟩, normalized, taken⟩ := bind_eq_ok.mp taken
      cases taken
      rw [scanChanges_complete rest afters spells good within enough normalized]
    | _ => cases taken
  · rw [if_neg isChanges] at taken within ⊢
    obtain ⟨_, valid, taken⟩ := bind_eq_ok.mp taken
    cases taken
    rw [readHeaderValue_complete afters spells good within.1 within.2 delimited valid]

lemma scanProperties_sound {updated : Scanned}
    (done : Whole.input.scanProperties engine limits fuel scanned (.of text) = .ok (updated, next)) :
    ∃ space spelled rest members, Spaces space ∧ next = .of rest ∧
      Spells (.members members) spelled ∧ NoRepeatsMembers members ∧
      text = space ++ spelled ++ rest ∧
      takeMembers engine limits scanned (kept members) = .ok updated := by
  induction fuel generalizing scanned text with
  | zero => cases done
  | succ fuel ih =>
    obtain ⟨⟨after, left⟩, read, continued⟩ := bind_eq_ok.mp done
    obtain ⟨⟨more, behind⟩, delimiter, finished⟩ := bind_eq_ok.mp continued
    clear done continued
    obtain ⟨space, name, key, before, later, spelled, gap, rest, written, spaces, named, befores, laters,
      spells, gaps, rfl, good, rfl, taken⟩ := scanProperty_sound read
    obtain ⟨around, arounds, ⟨rfl, last, rfl, rfl⟩ | ⟨rfl, between, other, betweens, rfl, rfl⟩⟩ :=
      readDelimiter_sound delimiter
    · cases finished
      refine ⟨space, _, last, [(name, written)], spaces, rfl,
        .lastMember named befores laters spells (gaps.append arounds), ⟨good, trivial⟩, ?_, ?_⟩
      · simp only [List.append_assoc, List.cons_append, List.nil_append]
      · simp only [kept, List.map_cons, List.map_nil, takeMembers, bind, Except.bind, taken]
    · obtain ⟨inner, others, rest, members, inners, rfl, spelledOthers, goods, rfl, rests⟩ :=
        ih finished
      refine ⟨space, _, rest, (name, written) :: members, spaces, rfl,
        .member named befores laters spells (gaps.append arounds) (betweens.append inners) spelledOthers,
        ⟨good, goods⟩, ?_, ?_⟩
      · simp only [List.append_assoc, List.cons_append, List.nil_append]
      · rw [kept_cons, takeMembers, taken]
        exact rests

lemma scanProperties_complete {updated : Scanned} (rest : Text) (laid : LaidMembers members spelled)
    (goods : NoRepeatsMembers (values members))
    (fits : ∀ member ∈ members, MemberFits limits member) (enough : spelled.length ≤ fuel)
    (taken : takeMembers engine limits scanned (kept (values members)) = .ok updated) :
    Whole.input.scanProperties engine limits fuel scanned (.of (spelled ++ rest)) =
      .ok (updated, .of rest) := by
  induction laid generalizing scanned fuel with
  | @last member before after space named befores afters spells spaces =>
    obtain ⟨next, first, taken⟩ := bind_eq_ok.mp taken
    cases taken
    cases fuel with
    | zero => simp at enough
    | succ fuel =>
      have delimited : Delimited (space ++ closeBrace :: rest) :=
        delimited_spaces spaces (by decide)
      have shorter : member.raw.length ≤ fuel := by
        simp only [List.length_append, List.length_cons] at enough
        omega
      have split : quote :: member.key ++ [quote] ++ before ++ colon :: after ++ member.raw ++ space ++
          [closeBrace] ++ rest = quote :: member.key ++ [quote] ++ before ++ colon :: after ++
            member.raw ++ (space ++ closeBrace :: rest) := by
        simp only [List.append_assoc, List.cons_append, List.nil_append]
      rw [split, Source.scanProperties, scanProperty_complete named befores afters spells goods.1
        (fits _ (by simp)) delimited shorter first]
      simp only [bind, Except.bind, readDelimiter_close spaces (by decide : isSpace closeBrace = false)]
      rfl
  | @cons member members before after space gap tail named befores afters spells spaces gaps others ih =>
    obtain ⟨next, first, taken⟩ := bind_eq_ok.mp taken
    cases fuel with
    | zero => simp at enough
    | succ fuel =>
      have delimited : Delimited (space ++ comma :: (gap ++ (tail ++ rest))) :=
        delimited_spaces spaces (by decide)
      have shorter : member.raw.length ≤ fuel ∧ tail.length ≤ fuel := by
        simp only [List.length_append, List.length_cons] at enough
        omega
      have split : quote :: member.key ++ [quote] ++ before ++ colon :: after ++ member.raw ++ space ++
          comma :: gap ++ tail ++ rest = quote :: member.key ++ [quote] ++ before ++ colon :: after ++
            member.raw ++ (space ++ comma :: (gap ++ (tail ++ rest))) := by
        simp only [List.append_assoc, List.cons_append]
      obtain ⟨unit, later, starts, opens⟩ := others.spells.opens
      rw [List.forall_mem_cons] at fits
      rw [split, Source.scanProperties, scanProperty_complete named befores afters spells goods.1 fits.1
        delimited shorter.1 first]
      simp only [bind, Except.bind,
        readDelimiter_comma spaces gaps starts opens.notSpace (opens.ne (.inr (.inl rfl))) (by decide)]
      exact ih goods.2 fits.2 shorter.2 taken

lemma scanObject_sound
    (done : Whole.input.scanObject engine limits fuel (.of text) = .ok (scanned, next)) :
    ∃ space spelled rest members, Spaces space ∧ next = .of rest ∧
      Spells (.value (.object members)) spelled ∧ NoRepeatsMembers members ∧
      text = space ++ spelled ++ rest ∧
      takeMembers engine limits .initial (kept members) = .ok scanned := by
  obtain ⟨⟨_, opened⟩, expected, done⟩ := bind_eq_ok.mp done
  obtain ⟨space, after, spaces, rfl, rfl⟩ := expect_sound expected
  obtain ⟨inner, inners, split, _⟩ := skipSpaces_spec after
  simp only [bind, Except.bind, whole_skipWhitespace, whole_peek] at done
  by_cases ends : (skipSpaces after).head? = some closeBrace
  · obtain ⟨rest, skipped⟩ := List.head?_eq_some_iff.mp ends
    rw [if_pos ends, skipped, whole_take_cons] at done
    cases done
    refine ⟨space, _, rest, [], spaces, rfl, .emptyObject inners, trivial, ?_, rfl⟩
    rw [split, skipped]
    simp only [List.append_assoc, List.cons_append, List.nil_append]
  · rw [if_neg ends] at done
    obtain ⟨more, spelled, rest, members, mores, rfl, spells, goods, whole, taken⟩ :=
      scanProperties_sound done
    refine ⟨space, _, rest, members, spaces, rfl, .object (inners.append mores) spells, goods, ?_, taken⟩
    rw [split, whole]
    simp only [List.append_assoc, List.cons_append]

/-- A document that is scanned is an object that the text denotes. -/
theorem scanDocument_sound
    (done : Whole.input.scanDocument engine limits fuel (.of text) = .ok (scanned, next)) :
    ∃ members, Json.Denotes text (.object members) ∧ NoRepeatsMembers members ∧
      takeMembers engine limits .initial (kept members) = .ok scanned ∧ scanned.sawChanges = true := by
  obtain ⟨⟨found, left⟩, object, continued⟩ := bind_eq_ok.mp done
  clear done
  obtain ⟨space, spelled, rest, members, spaces, rfl, spells, goods, rfl, taken⟩ := scanObject_sound object
  dsimp only at continued
  split at continued
  · cases continued
  rename_i saw
  simp only [bind, Except.bind, whole_skipWhitespace, whole_peek] at continued
  split at continued
  · cases continued
  rename_i nothing
  cases continued
  refine ⟨members, ⟨space, spelled, rest, spaces, ?_, spells, rfl⟩, goods, taken, by simpa using saw⟩
  obtain ⟨ending, endings, whole, _⟩ := skipSpaces_spec rest
  have empty : skipSpaces rest = [] := by simpa using nothing
  rw [empty, List.append_nil] at whole
  rw [whole]
  exact endings

/-- The object that is laid out in a text is scanned. -/
theorem scanDocument_complete {inner : Text} (spaces : Spaces space) (inners : Spaces inner)
    (rests : Spaces rest) (laid : LaidMembers members raw)
    (goods : NoRepeatsMembers (values members))
    (fits : ∀ member ∈ members, MemberFits limits member)
    (enough : (space ++ openBrace :: inner ++ raw ++ rest).length ≤ fuel)
    (taken : takeMembers engine limits .initial (kept (values members)) = .ok scanned)
    (saw : scanned.sawChanges = true) :
    Whole.input.scanDocument engine limits fuel (.of (space ++ openBrace :: inner ++ raw ++ rest)) =
      .ok (scanned, .of []) := by
  have ends : skipSpaces rest = [] := by
    have := skipSpaces_append rests (by simp [Starts] : Starts [])
    rwa [List.append_nil] at this
  obtain ⟨unit, tail, starts, opens⟩ := laid.spells.opens
  have split : space ++ openBrace :: inner ++ raw ++ rest =
      space ++ openBrace :: (inner ++ (raw ++ rest)) := by simp
  have skipped : skipSpaces (inner ++ (raw ++ rest)) = raw ++ rest :=
    skipSpaces_append inners laid.spells.starts
  have notClose : ¬ (raw ++ rest).head? = some closeBrace := by
    rw [starts]
    exact fun same => opens.ne (.inr (.inl rfl)) (Option.some.inj same)
  have shorter : raw.length ≤ fuel := by
    simp only [List.length_append, List.length_cons] at enough
    omega
  have object : Whole.input.scanObject engine limits fuel
      (.of (space ++ openBrace :: inner ++ raw ++ rest)) = .ok (scanned, .of rest) := by
    rw [split, Source.scanObject, expect_spaces spaces (by decide)]
    simp only [bind, Except.bind, whole_skipWhitespace, whole_peek]
    rw [skipped, if_neg notClose]
    exact scanProperties_complete rest laid goods fits shorter taken
  rw [Source.scanDocument, object]
  simp only [bind, Except.bind, whole_skipWhitespace, whole_peek, ends]
  rw [if_neg (by simp [saw])]
  rfl

end Members

end OmegaEdit.ChangeLog
