import OmegaEdit.ChangeLog.Chunking

/-! The scanner cuts a JSON text where the grammar ends a value. It only counts brackets
and quotes, so each lemma about cutting is stated with the text that follows: the scanner
passes over a spelled value and goes on behind it. The search for repeated names passes
over it in the same way. -/
namespace OmegaEdit.ChangeLog
open Utf16 Json
variable {a b c d opening closing : CodeUnit}
  {text space word body name key before after gap rest : Text} {piece : Piece} {value : Value}
  {keys : List Text}

section Units

/-- A unit without a meaning outside strings, for the scanner and for the search. -/
def Unmarked (unit : CodeUnit) : Prop :=
  unit ≠ openBrace ∧ unit ≠ openBracket ∧ ¬ (unit = closeBrace ∨ unit = closeBracket) ∧ unit ≠ quote

lemma unmarked_spaces (spaces : Spaces space) : ∀ unit ∈ space, Unmarked unit := by
  intro unit mem
  have known := spaces unit mem
  simp only [isSpace, Bool.or_eq_true, beq_iff_eq] at known
  rcases known with ((rfl | rfl) | rfl) | rfl <;> unfold Unmarked <;> decide

lemma unmarked_cons {unit : CodeUnit} (mark : unit = comma ∨ unit = colon) (gaps : Spaces gap) :
    ∀ other ∈ unit :: gap, Unmarked other := by
  rw [List.forall_mem_cons]
  refine ⟨?_, unmarked_spaces gaps⟩
  rcases mark with rfl | rfl <;> unfold Unmarked <;> decide

lemma isWordUnit_ne {unit mark : CodeUnit} (word : isWordUnit unit = true)
    (other : isWordUnit mark = false) : unit ≠ mark := by
  rintro rfl
  rw [word] at other
  cases other

lemma unmarked_word (units : ∀ unit ∈ word, isWordUnit unit = true) :
    ∀ unit ∈ word, Unmarked unit := by
  intro unit mem
  have ne : ∀ mark : CodeUnit, isWordUnit mark = false → unit ≠ mark :=
    fun mark other => isWordUnit_ne (units unit mem) other
  exact ⟨ne _ (by decide), ne _ (by decide), not_or.mpr ⟨ne _ (by decide), ne _ (by decide)⟩,
    ne _ (by decide)⟩

lemma hexValue_ne {unit digit : CodeUnit} (known : hexValue unit = some digit) :
    unit ≠ quote ∧ unit ≠ backslash := by
  constructor
  · rintro rfl
    cases known
  · rintro rfl
    cases known

lemma hexUnit_plain {unit : CodeUnit} (named : hexUnit a b c d = some unit) :
    ∀ digit ∈ [a, b, c, d], digit ≠ quote ∧ digit ≠ backslash := by
  obtain ⟨_, first, named⟩ := hexFold_cons.mp named
  obtain ⟨_, second, named⟩ := hexFold_cons.mp named
  obtain ⟨_, third, named⟩ := hexFold_cons.mp named
  obtain ⟨_, fourth, _⟩ := hexFold_cons.mp named
  intro digit mem
  simp only [List.mem_cons, List.not_mem_nil, or_false] at mem
  rcases mem with rfl | rfl | rfl | rfl
  · exact hexValue_ne first
  · exact hexValue_ne second
  · exact hexValue_ne third
  · exact hexValue_ne fourth

end Units

section Passing
variable {mode : RawMode} {maxNesting : Nat} {context : String}

/-- The scanner passes over a text and goes on in the next state. -/
def Passes (mode : RawMode) (maxNesting : Nat) (context : String) (state : RawState) (raw : Text)
    (next : RawState) : Prop :=
  ∀ rest, scanUnits mode maxNesting context state (raw ++ rest) =
    (scanUnits mode maxNesting context next rest).map
      fun later => { later with piece := raw ++ later.piece }

namespace Passes
variable {state next last : RawState} {raw later : Text}

lemma nil : Passes mode maxNesting context state [] state := by
  intro rest
  rw [List.nil_append]
  cases scanUnits mode maxNesting context state rest with
  | error fault => rfl
  | ok scanned => rfl

lemma append (first : Passes mode maxNesting context state raw next)
    (second : Passes mode maxNesting context next later last) :
    Passes mode maxNesting context state (raw ++ later) last := by
  intro rest
  rw [List.append_assoc, first, second]
  cases scanUnits mode maxNesting context last rest with
  | error fault => rfl
  | ok scanned => simp only [Except.map, List.append_assoc]

lemma unit {unit : CodeUnit}
    (inside : ¬ (mode = .primitive ∧ state.inString = false ∧ state.nesting = 0 ∧ isDelimiter unit))
    (stepped : state.step mode maxNesting context unit = .ok (next, false)) :
    Passes mode maxNesting context state [unit] next := by
  intro rest
  rw [List.singleton_append, scanUnits, if_neg inside, stepped]
  cases scan : scanUnits mode maxNesting context next rest with
  | error fault => simp only [bind, Except.bind, scan, Except.map, Bool.false_eq_true, if_false]
  | ok scanned =>
    simp only [bind, Except.bind, scan, Except.map, Bool.false_eq_true, if_false,
      List.singleton_append]

/-- The scanner takes the units of a text one by one, and stays in its state. -/
lemma units (each : ∀ unit ∈ raw, Passes mode maxNesting context state [unit] state) :
    Passes mode maxNesting context state raw state := by
  induction raw with
  | nil => exact nil
  | cons unit raw ih =>
    rw [List.forall_mem_cons] at each
    exact each.1.append (ih each.2)

end Passes

variable {nesting : Nat}

lemma passes_stringUnit {unit : CodeUnit} (notQuote : unit ≠ quote) (notEscape : unit ≠ backslash) :
    Passes mode maxNesting context ⟨true, false, nesting⟩ [unit] ⟨true, false, nesting⟩ := by
  apply Passes.unit
  · rintro ⟨_, outside, _⟩
    cases outside
  · rw [RawState.step, if_pos rfl, if_neg Bool.false_ne_true, if_neg notEscape, if_neg notQuote]

lemma passes_escape {letter : CodeUnit} :
    Passes mode maxNesting context ⟨true, false, nesting⟩ [backslash, letter]
      ⟨true, false, nesting⟩ := by
  have first : Passes mode maxNesting context ⟨true, false, nesting⟩ [backslash]
      ⟨true, true, nesting⟩ := by
    apply Passes.unit
    · rintro ⟨_, outside, _⟩
      cases outside
    · rw [RawState.step, if_pos rfl, if_neg Bool.false_ne_true, if_pos rfl]
  have second : Passes mode maxNesting context ⟨true, true, nesting⟩ [letter]
      ⟨true, false, nesting⟩ := by
    apply Passes.unit
    · rintro ⟨_, outside, _⟩
      cases outside
    · rw [RawState.step, if_pos rfl, if_pos rfl]
  exact first.append second

lemma passes_hex {unit : CodeUnit} (named : hexUnit a b c d = some unit) :
    Passes mode maxNesting context ⟨true, false, nesting⟩ [a, b, c, d] ⟨true, false, nesting⟩ := by
  apply Passes.units
  intro digit mem
  exact passes_stringUnit (hexUnit_plain named digit mem).1 (hexUnit_plain named digit mem).2

/-- The scanner stays inside a string as long as its characters are spelled. -/
lemma passes_chars {raw : Text} (chars : Chars text raw) :
    Passes mode maxNesting context ⟨true, false, nesting⟩ raw ⟨true, false, nesting⟩ := by
  induction chars with
  | nil => exact Passes.nil
  | plain notQuote notEscape _ _ ih => exact (passes_stringUnit notQuote notEscape).append ih
  | escape _ _ _ ih => exact passes_escape.append ih
  | hex named _ ih => exact passes_escape.append ((passes_hex named).append ih)

/-- The scanner passes over a text outside strings and is as deep behind it as before. -/
abbrev Crosses (mode : RawMode) (maxNesting : Nat) (context : String) (nesting : Nat) (raw : Text) :
    Prop := Passes mode maxNesting context ⟨false, false, nesting⟩ raw ⟨false, false, nesting⟩

lemma step_unmarked {unit : CodeUnit} (unmarked : Unmarked unit) :
    RawState.step mode maxNesting context ⟨false, false, nesting⟩ unit =
      .ok (⟨false, false, nesting⟩, false) := by
  obtain ⟨notBrace, notBracket, notClose, notQuote⟩ := unmarked
  rw [RawState.step, if_neg Bool.false_ne_true, if_neg notQuote,
    if_neg (not_or.mpr ⟨notBrace, notBracket⟩), if_neg notClose]

/-- Units that neither open nor close anything, where the scanner does not wait for a delimiter. -/
lemma passes_unmarked {raw : Text} (inner : 0 < nesting) (unmarked : ∀ unit ∈ raw, Unmarked unit) :
    Crosses mode maxNesting context nesting raw := by
  apply Passes.units
  intro unit mem
  apply Passes.unit
  · rintro ⟨_, _, outer, _⟩
    exact absurd outer inner.ne'
  · exact step_unmarked (unmarked unit mem)

lemma passes_spaces (inner : 0 < nesting) (spaces : Spaces space) :
    Crosses mode maxNesting context nesting space :=
  passes_unmarked inner (unmarked_spaces spaces)

lemma passes_string {raw : Text} (inner : 0 < nesting) (chars : Chars text raw) :
    Crosses mode maxNesting context nesting (quote :: raw ++ [quote]) := by
  have opened : Passes mode maxNesting context ⟨false, false, nesting⟩ [quote]
      ⟨true, false, nesting⟩ := by
    apply Passes.unit
    · rintro ⟨_, _, outer, _⟩
      exact absurd outer inner.ne'
    · rw [RawState.step, if_neg Bool.false_ne_true, if_pos rfl]
  have closed : Passes mode maxNesting context ⟨true, false, nesting⟩ [quote]
      ⟨false, false, nesting⟩ := by
    apply Passes.unit
    · rintro ⟨_, outside, _⟩
      cases outside
    · rw [RawState.step, if_pos rfl, if_neg Bool.false_ne_true, if_neg (by decide), if_pos rfl]
      simp only [inner.ne', and_false, decide_false]
  exact opened.append ((passes_chars chars).append closed)

/-- A bracket that opens a container, inside another one or at the start of a raw value. -/
lemma passes_open {unit : CodeUnit} (flat : nesting + 1 ≤ maxNesting)
    (opening : unit = openBrace ∨ unit = openBracket) :
    Passes mode maxNesting context ⟨false, false, nesting⟩ [unit] ⟨false, false, nesting + 1⟩ := by
  apply Passes.unit
  · rintro ⟨_, _, _, delimiter⟩
    rcases opening with rfl | rfl <;> exact absurd delimiter (by decide)
  · have notQuote : unit ≠ quote := by
      rcases opening with rfl | rfl <;> decide
    rw [RawState.step, if_neg Bool.false_ne_true, if_neg notQuote, if_pos opening,
      if_neg (not_lt.mpr flat)]

lemma step_close {unit : CodeUnit} (closing : unit = closeBrace ∨ unit = closeBracket) :
    RawState.step mode maxNesting context ⟨false, false, nesting + 1⟩ unit =
      .ok (⟨false, false, nesting⟩, decide (mode = .container ∧ nesting = 0)) := by
  have notQuote : unit ≠ quote := by
    rcases closing with rfl | rfl <;> decide
  have notOpen : ¬ (unit = openBrace ∨ unit = openBracket) := by
    rcases closing with rfl | rfl <;> decide
  rw [RawState.step, if_neg Bool.false_ne_true, if_neg notQuote, if_neg notOpen, if_pos closing,
    if_neg (Nat.succ_ne_zero nesting)]
  rfl

lemma passes_close {unit : CodeUnit} (inner : 0 < nesting)
    (closing : unit = closeBrace ∨ unit = closeBracket) :
    Passes mode maxNesting context ⟨false, false, nesting + 1⟩ [unit] ⟨false, false, nesting⟩ := by
  apply Passes.unit
  · rintro ⟨_, _, outer, _⟩
    cases outer
  · rw [step_close closing]
    simp only [inner.ne', and_false, decide_false]

/-- What the scanner does with a part of a text inside a container. The closing bracket stands
apart, for at the start of a raw value it ends the value. -/
def Inner (mode : RawMode) (maxNesting : Nat) (context : String) : Piece → Text → Prop
  | .value value, raw => ∀ nesting, 0 < nesting → nesting + value.nesting ≤ maxNesting →
      Passes mode maxNesting context ⟨false, false, nesting⟩ raw ⟨false, false, nesting⟩
  | .elements elements, raw => ∃ body, raw = body ++ [closeBracket] ∧ ∀ nesting, 0 < nesting →
      nesting + nestingElements elements ≤ maxNesting →
      Passes mode maxNesting context ⟨false, false, nesting⟩ body ⟨false, false, nesting⟩
  | .members members, raw => ∃ body, raw = body ++ [closeBrace] ∧ ∀ nesting, 0 < nesting →
      nesting + nestingMembers members ≤ maxNesting →
      Passes mode maxNesting context ⟨false, false, nesting⟩ body ⟨false, false, nesting⟩

lemma inner_container (opens : opening = openBrace ∨ opening = openBracket)
    (closes : closing = closeBrace ∨ closing = closeBracket) (spaces : Spaces space)
    (inner : 0 < nesting) (flat : nesting + 1 ≤ maxNesting)
    (passes : Crosses mode maxNesting context (nesting + 1) body) :
    Crosses mode maxNesting context nesting (opening :: space ++ (body ++ [closing])) := by
  have later : Passes mode maxNesting context ⟨false, false, nesting + 1⟩
      (space ++ (body ++ [closing])) ⟨false, false, nesting⟩ :=
    (passes_spaces (Nat.succ_pos _) spaces).append (passes.append (passes_close inner closes))
  exact (passes_open flat opens).append later

lemma inner_member {raw : Text} (inner : 0 < nesting) (named : Chars name key)
    (befores : Spaces before) (afters : Spaces after)
    (passes : Crosses mode maxNesting context nesting raw) :
    Crosses mode maxNesting context nesting
      (quote :: key ++ [quote] ++ before ++ colon :: after ++ raw) := by
  have marked : Crosses mode maxNesting context nesting (colon :: after) :=
    passes_unmarked inner (unmarked_cons (.inr rfl) afters)
  have front : Crosses mode maxNesting context nesting (quote :: key ++ [quote] ++ before) :=
    (passes_string inner named).append (passes_spaces inner befores)
  exact (front.append marked).append passes

lemma passes_comma (inner : 0 < nesting) (gaps : Spaces gap) :
    Crosses mode maxNesting context nesting (comma :: gap) :=
  passes_unmarked inner (unmarked_cons (.inl rfl) gaps)

/-- The scanner passes over every spelled value inside a container. -/
theorem inner_spells {raw : Text} (spells : Spells piece raw) :
    Inner mode maxNesting context piece raw := by
  induction spells with
  | word _ units =>
    intro nesting inner _
    exact passes_unmarked inner (unmarked_word units)
  | string chars =>
    intro nesting inner _
    exact passes_string inner chars
  | emptyArray spaces =>
    intro nesting inner flat
    exact inner_container (.inr rfl) (.inr rfl) spaces inner flat Passes.nil
  | array spaces _ ih =>
    obtain ⟨body, rfl, passes⟩ := ih
    intro nesting inner flat
    rw [Value.nesting] at flat
    exact inner_container (.inr rfl) (.inr rfl) spaces inner (by omega)
      (passes (nesting + 1) (Nat.succ_pos _) (by omega))
  | lastElement _ spaces ih =>
    refine ⟨_, rfl, fun nesting inner flat => ?_⟩
    rw [nestingElements, nestingElements] at flat
    exact (ih nesting inner (by omega)).append (passes_spaces inner spaces)
  | element _ spaces gaps _ ih others =>
    obtain ⟨body, rfl, passes⟩ := others
    refine ⟨_, (List.append_assoc _ _ _).symm, fun nesting inner flat => ?_⟩
    rw [nestingElements] at flat
    exact (((ih nesting inner (by omega)).append (passes_spaces inner spaces)).append
      (passes_comma inner gaps)).append (passes nesting inner (by omega))
  | emptyObject spaces =>
    intro nesting inner flat
    exact inner_container (.inl rfl) (.inl rfl) spaces inner flat Passes.nil
  | object spaces _ ih =>
    obtain ⟨body, rfl, passes⟩ := ih
    intro nesting inner flat
    rw [Value.nesting] at flat
    exact inner_container (.inl rfl) (.inl rfl) spaces inner (by omega)
      (passes (nesting + 1) (Nat.succ_pos _) (by omega))
  | lastMember named befores afters _ spaces ih =>
    refine ⟨_, rfl, fun nesting inner flat => ?_⟩
    rw [nestingMembers, nestingMembers] at flat
    exact (inner_member inner named befores afters (ih nesting inner (by omega))).append
      (passes_spaces inner spaces)
  | member named befores afters _ spaces gaps _ ih others =>
    obtain ⟨body, rfl, passes⟩ := others
    refine ⟨_, (List.append_assoc _ _ _).symm, fun nesting inner flat => ?_⟩
    rw [nestingMembers] at flat
    exact (((inner_member inner named befores afters (ih nesting inner (by omega))).append
      (passes_spaces inner spaces)).append (passes_comma inner gaps)).append
        (passes nesting inner (by omega))

end Passing

section Cutting
variable {maxNesting : Nat} {context : String}

/-- The scanner ends a raw value behind a text. -/
def Cuts (mode : RawMode) (maxNesting : Nat) (context : String) (raw rest : Text) : Prop :=
  ∃ state, scanUnits mode maxNesting context .initial (raw ++ rest) = .ok ⟨state, raw, rest, true⟩

/-- A text that is passed over and the unit that ends the value. -/
lemma Passes.cuts {mode : RawMode} {next last : RawState} {raw : Text} {unit : CodeUnit}
    (passes : Passes mode maxNesting context .initial raw next)
    (inside : ¬ (mode = .primitive ∧ next.inString = false ∧ next.nesting = 0 ∧ isDelimiter unit))
    (stepped : next.step mode maxNesting context unit = .ok (last, true)) :
    Cuts mode maxNesting context (raw ++ [unit]) rest := by
  refine ⟨last, ?_⟩
  rw [List.append_assoc, passes, List.singleton_append, scanUnits, if_neg inside, stepped]
  simp [bind, Except.bind, Except.map]

lemma cuts_string {raw : Text} (chars : Chars text raw) (rest : Text) :
    Cuts .string maxNesting context (quote :: raw ++ [quote]) rest := by
  have opened : Passes .string maxNesting context .initial [quote] ⟨true, false, 0⟩ := by
    apply Passes.unit
    · rintro ⟨primitive, _⟩
      cases primitive
    · rfl
  apply (opened.append (passes_chars chars)).cuts
  · rintro ⟨primitive, _⟩
    cases primitive
  · rfl

lemma cuts_container (opens : opening = openBrace ∨ opening = openBracket)
    (closes : closing = closeBrace ∨ closing = closeBracket) (spaces : Spaces space)
    (flat : 1 ≤ maxNesting)
    (passes : Passes .container maxNesting context ⟨false, false, 1⟩ body ⟨false, false, 1⟩)
    (rest : Text) :
    Cuts .container maxNesting context (opening :: space ++ (body ++ [closing])) rest := by
  have inner : Passes .container maxNesting context .initial ([opening] ++ (space ++ body))
      ⟨false, false, 1⟩ :=
    (passes_open flat opens).append ((passes_spaces one_pos spaces).append passes)
  have split : opening :: space ++ (body ++ [closing]) =
      [opening] ++ (space ++ body) ++ [closing] := by
    simp only [List.cons_append, List.nil_append, List.append_assoc]
  rw [split]
  apply inner.cuts
  · rintro ⟨primitive, _⟩
    cases primitive
  · exact step_close closes

lemma cuts_word {unit : CodeUnit} (units : ∀ unit ∈ word, isWordUnit unit = true)
    (delimiter : isDelimiter unit = true) :
    Cuts .primitive maxNesting context word (unit :: rest) := by
  refine ⟨.initial, ?_⟩
  induction word with
  | nil =>
    rw [List.nil_append, scanUnits, if_pos ⟨rfl, rfl, rfl, delimiter⟩]
  | cons first word ih =>
    have ne : ∀ mark : CodeUnit, isWordUnit mark = false → first ≠ mark :=
      fun mark other => isWordUnit_ne (units first List.mem_cons_self) other
    have inside : isDelimiter first = false := by
      simp only [isDelimiter, isSpace, Bool.or_eq_false_iff, beq_eq_false_iff_ne]
      refine ⟨⟨⟨?_, ?_⟩, ?_⟩, ⟨⟨?_, ?_⟩, ?_⟩, ?_⟩ <;> exact ne _ (by decide)
    have stepped : RawState.initial.step .primitive maxNesting context first = .ok (.initial, false) :=
      step_unmarked (unmarked_word units first List.mem_cons_self)
    rw [List.cons_append, scanUnits, if_neg (by simp [inside]), stepped]
    simp only [bind, Except.bind, Bool.false_eq_true, if_false,
      ih fun unit mem => units unit (List.mem_cons_of_mem _ mem)]

/-- The scanner cuts a value where the grammar ends it. -/
theorem cuts_value {first : CodeUnit} {raw tail : Text} (spells : Spells (.value value) raw)
    (starts : raw = first :: tail) (flat : value.nesting ≤ maxNesting)
    (delimited : ∃ unit later, rest = unit :: later ∧ isDelimiter unit = true) :
    Cuts (RawMode.of first) maxNesting context raw rest := by
  cases spells with
  | @word _ _ known units =>
    obtain ⟨unit, later, rfl, delimiter⟩ := delimited
    have word : isWordUnit first = true := units first (by simp [starts])
    have primitive : RawMode.of first = .primitive := by
      rw [RawMode.of, if_neg (isWordUnit_ne word (by decide)), if_neg]
      exact not_or.mpr ⟨isWordUnit_ne word (by decide), isWordUnit_ne word (by decide)⟩
    rw [primitive]
    exact cuts_word units delimiter
  | string chars =>
    cases starts
    exact cuts_string chars rest
  | emptyArray spaces =>
    cases starts
    exact cuts_container (.inr rfl) (.inr rfl) spaces flat Passes.nil rest
  | array spaces elements =>
    cases starts
    obtain ⟨body, rfl, passes⟩ := inner_spells elements
    rw [Value.nesting] at flat
    exact cuts_container (.inr rfl) (.inr rfl) spaces (by omega) (passes 1 one_pos (by omega)) rest
  | emptyObject spaces =>
    cases starts
    exact cuts_container (.inl rfl) (.inl rfl) spaces flat Passes.nil rest
  | object spaces members =>
    cases starts
    obtain ⟨body, rfl, passes⟩ := inner_spells members
    rw [Value.nesting] at flat
    exact cuts_container (.inl rfl) (.inl rfl) spaces (by omega) (passes 1 one_pos (by omega)) rest

/-- What the scanner cuts is the front of what it is given, and all of it if nothing ends it. -/
lemma scanUnits_split {mode : RawMode} {state : RawState} {buffer : Text} {scanned : RawPiece}
    (done : scanUnits mode maxNesting context state buffer = .ok scanned) :
    buffer = scanned.piece ++ scanned.rest ∧ (¬ scanned.complete → scanned.rest = []) := by
  induction buffer generalizing state scanned with
  | nil =>
    cases done
    exact ⟨rfl, fun _ => rfl⟩
  | cons unit rest ih =>
    rw [scanUnits] at done
    split at done
    · cases done
      exact ⟨rfl, fun ended => absurd rfl ended⟩
    · obtain ⟨⟨next, last⟩, _, done⟩ := Transition.bind_eq_ok.mp done
      dsimp only at done
      split at done
      · cases done
        exact ⟨rfl, fun ended => absurd rfl ended⟩
      · obtain ⟨later, scan, done⟩ := Transition.bind_eq_ok.mp done
        cases done
        obtain ⟨whole, nothing⟩ := ih scan
        exact ⟨by rw [List.cons_append, ← whole], nothing⟩

end Cutting

section Repeats
variable {context : String} {stack : List Container}

/-- A search passes a check and goes on, or the check fails and ends it. -/
def Checks (good : Prop) (search next : Except CodecError Unit) : Prop :=
  good ∧ search = next ∨ ¬ good ∧ ∃ fault, search = .error fault

namespace Checks
variable {good other : Prop} {search next last : Except CodecError Unit}

lemma trans (first : Checks good search next) (second : Checks other next last) :
    Checks (good ∧ other) search last := by
  rcases first with ⟨holds, rfl⟩ | ⟨fails, fault, failed⟩
  · rcases second with ⟨also, rfl⟩ | ⟨fails, failed⟩
    · exact .inl ⟨⟨holds, also⟩, rfl⟩
    · exact .inr ⟨fun both => fails both.2, failed⟩
  · exact .inr ⟨fun both => fails both.1, fault, failed⟩

lemma congr (checks : Checks good search next) (same : good ↔ other) : Checks other search next := by
  rwa [← propext same]

end Checks

lemma findRepeats_unmarked {raw : Text} (unmarked : ∀ unit ∈ raw, Unmarked unit) (rest : Text) :
    findRepeats context stack none (raw ++ rest) = findRepeats context stack none rest := by
  induction raw with
  | nil => rfl
  | cons unit raw ih =>
    rw [List.forall_mem_cons] at unmarked
    obtain ⟨⟨notBrace, notBracket, notClose, notQuote⟩, unmarked⟩ := unmarked
    rw [List.cons_append, findRepeats, if_neg notBrace, if_neg notBracket, if_neg notClose,
      if_neg notQuote, ih unmarked]

/-- Inside a string the search gathers the units that neither end it nor escape. -/
lemma findRepeats_stringUnits {raw : Text} (plain : ∀ unit ∈ raw, unit ≠ quote ∧ unit ≠ backslash)
    (body rest : Text) :
    findRepeats context stack (some (false, body)) (raw ++ rest) =
      findRepeats context stack (some (false, body ++ raw)) rest := by
  induction raw generalizing body with
  | nil => rw [List.nil_append, List.append_nil]
  | cons unit raw ih =>
    rw [List.forall_mem_cons] at plain
    rw [List.cons_append, findRepeats, if_neg Bool.false_ne_true, if_neg plain.1.2,
      if_neg plain.1.1, ih plain.2, List.append_assoc, List.singleton_append]

lemma findRepeats_escape (letter : CodeUnit) (body rest : Text) :
    findRepeats context stack (some (false, body)) (backslash :: letter :: rest) =
      findRepeats context stack (some (false, body ++ [backslash, letter])) rest := by
  rw [findRepeats, if_neg Bool.false_ne_true, if_pos rfl, findRepeats, if_pos rfl,
    List.append_assoc, List.singleton_append]

lemma findRepeats_chars {raw : Text} (chars : Chars text raw) (body rest : Text) :
    findRepeats context stack (some (false, body)) (raw ++ rest) =
      findRepeats context stack (some (false, body ++ raw)) rest := by
  induction chars generalizing body with
  | nil => rw [List.nil_append, List.append_nil]
  | @plain unit text raw notQuote notEscape _ _ ih =>
    have first : findRepeats context stack (some (false, body)) ([unit] ++ (raw ++ rest)) =
        findRepeats context stack (some (false, body ++ [unit])) (raw ++ rest) :=
      findRepeats_stringUnits (by simp [notQuote, notEscape]) body (raw ++ rest)
    rw [List.singleton_append] at first
    rw [List.cons_append, first, ih, List.append_assoc, List.singleton_append]
  | @escape letter unit text raw _ _ _ ih =>
    rw [List.cons_append, List.cons_append, findRepeats_escape, ih, List.append_assoc]
    rfl
  | @hex a b c d unit text raw named _ ih =>
    have digits : findRepeats context stack (some (false, body ++ [backslash, 117]))
        ([a, b, c, d] ++ (raw ++ rest)) =
          findRepeats context stack (some (false, body ++ [backslash, 117] ++ [a, b, c, d]))
            (raw ++ rest) :=
      findRepeats_stringUnits (hexUnit_plain named) (body ++ [backslash, 117]) (raw ++ rest)
    simp only [List.cons_append, findRepeats_escape]
    simp only [List.cons_append, List.nil_append] at digits
    rw [digits, ih, List.append_assoc, List.append_assoc]
    rfl

lemma parse_quoted {raw : Text} (chars : Chars text raw) :
    parse (quote :: raw ++ [quote]) = some (.string text) := by
  have denotes : Json.Denotes (quote :: raw ++ [quote]) (.string text) :=
    ⟨[], quote :: raw ++ [quote], [], Spaces.nil, Spaces.nil, .string chars, by simp⟩
  rw [parse, readText_eq_some_iff.mpr denotes]
  rfl

lemma findRepeats_quoted {raw : Text} (chars : Chars text raw) (rest : Text) :
    findRepeats context stack none (quote :: raw ++ [quote] ++ rest) =
      noteName context raw rest stack >>= fun stack => findRepeats context stack none rest := by
  rw [List.append_assoc, List.cons_append, findRepeats, if_neg (by decide), if_neg (by decide),
    if_neg (by decide), if_pos rfl, findRepeats_chars chars, List.singleton_append, findRepeats,
    if_neg Bool.false_ne_true, if_neg (by decide), if_pos rfl]
  rfl

lemma findRepeats_string {raw : Text} (chars : Chars text raw)
    (noName : (skipSpaces rest).head? ≠ some colon) :
    findRepeats context stack none (quote :: raw ++ [quote] ++ rest) =
      findRepeats context stack none rest := by
  have noted : noteName context raw rest stack = .ok stack := by
    cases stack with
    | nil => rfl
    | cons container below =>
      cases container with
      | array => rfl
      | object keys => exact if_neg noName
  rw [findRepeats_quoted chars, noted]
  rfl

/-- A name in an object is compared with the names before it. -/
lemma findRepeats_name (named : Chars name key) (befores : Spaces before) :
    Checks (name ∉ keys)
      (findRepeats context (.object keys :: stack) none
        (quote :: key ++ [quote] ++ (before ++ colon :: rest)))
      (findRepeats context (.object (name :: keys) :: stack) none (before ++ colon :: rest)) := by
  have mark : (skipSpaces (before ++ colon :: rest)).head? = some colon := by
    rw [skipSpaces_append befores (starts_cons (by decide))]
    rfl
  rw [findRepeats_quoted named, noteName, if_pos mark, parse_quoted named]
  dsimp only
  by_cases repeated : name ∈ keys
  · rw [if_pos repeated]
    exact .inr ⟨fun fresh => fresh repeated, _, rfl⟩
  · rw [if_neg repeated]
    exact .inl ⟨repeated, rfl⟩

/-- The names of an object are different from each other and from names before them. -/
def Fresh (keys : List Text) (members : List (Text × Value)) : Prop :=
  (members.map Prod.fst).Nodup ∧ ∀ name ∈ members.map Prod.fst, name ∉ keys

lemma fresh_cons {members : List (Text × Value)} :
    Fresh keys ((name, value) :: members) ↔ name ∉ keys ∧ Fresh (name :: keys) members := by
  rw [Fresh, Fresh, List.map_cons, List.nodup_cons, List.forall_mem_cons]
  simp only [List.mem_cons, not_or]
  constructor
  · rintro ⟨⟨absent, nodup⟩, fresh, later⟩
    refine ⟨fresh, nodup, fun other mem => ⟨?_, later other mem⟩⟩
    rintro rfl
    exact absent mem
  · rintro ⟨fresh, nodup, later⟩
    exact ⟨⟨fun mem => (later name mem).1 rfl, nodup⟩, fresh, fun other mem => (later other mem).2⟩

/-- What the search does with a part of a text. -/
def Searched (context : String) : Piece → Text → Prop
  | .value value, raw => ∀ stack rest, (skipSpaces rest).head? ≠ some colon →
      Checks value.NoRepeats (findRepeats context stack none (raw ++ rest))
        (findRepeats context stack none rest)
  | .elements elements, raw => ∀ stack rest,
      Checks (NoRepeatsElements elements) (findRepeats context (.array :: stack) none (raw ++ rest))
        (findRepeats context stack none rest)
  | .members members, raw => ∀ keys stack rest,
      Checks (Fresh keys members ∧ NoRepeatsMembers members)
        (findRepeats context (.object keys :: stack) none (raw ++ rest))
        (findRepeats context stack none rest)

lemma head_after_spaces {unit : CodeUnit} (spaces : Spaces space) (notSpace : isSpace unit = false)
    (notColon : unit ≠ colon) :
    (skipSpaces (space ++ unit :: rest)).head? ≠ some colon := by
  rw [skipSpaces_append spaces (starts_cons notSpace)]
  exact fun same => notColon (Option.some.inj same)

lemma findRepeats_close {container : Container} (rest : Text)
    (closes : closing = closeBrace ∨ closing = closeBracket) :
    findRepeats context (container :: stack) none (closing :: rest) =
      findRepeats context stack none rest := by
  have notBrace : closing ≠ openBrace := by
    rcases closes with rfl | rfl <;> decide
  have notBracket : closing ≠ openBracket := by
    rcases closes with rfl | rfl <;> decide
  rw [findRepeats, if_neg notBrace, if_neg notBracket, if_pos closes, List.tail_cons]

lemma searched_member {raw : Text} (stack : List Container) (keys : List Text)
    (named : Chars name key) (befores : Spaces before) (afters : Spaces after)
    (noName : (skipSpaces rest).head? ≠ some colon) (searched : Searched context (.value value) raw) :
    Checks (name ∉ keys ∧ value.NoRepeats)
      (findRepeats context (.object keys :: stack) none
        (quote :: key ++ [quote] ++ before ++ colon :: after ++ raw ++ rest))
      (findRepeats context (.object (name :: keys) :: stack) none rest) := by
  have first : Checks (name ∉ keys)
      (findRepeats context (.object keys :: stack) none
        (quote :: key ++ [quote] ++ (before ++ colon :: (after ++ (raw ++ rest)))))
      (findRepeats context (.object (name :: keys) :: stack) none
        (before ++ colon :: (after ++ (raw ++ rest)))) := findRepeats_name named befores
  have skipped : findRepeats context (.object (name :: keys) :: stack) none
      (before ++ colon :: (after ++ (raw ++ rest))) =
        findRepeats context (.object (name :: keys) :: stack) none (raw ++ rest) := by
    rw [findRepeats_unmarked (unmarked_spaces befores), ← List.cons_append,
      findRepeats_unmarked (unmarked_cons (.inr rfl) afters)]
  rw [skipped] at first
  have whole : quote :: key ++ [quote] ++ before ++ colon :: after ++ raw ++ rest =
      quote :: key ++ [quote] ++ (before ++ colon :: (after ++ (raw ++ rest))) := by
    simp only [List.append_assoc, List.cons_append]
  rw [whole]
  exact first.trans (searched _ rest noName)

/-- The search finds the repeated names of every spelled value. -/
theorem searched_spells {raw : Text} (spells : Spells piece raw) :
    Searched context piece raw := by
  induction spells with
  | @word value word known units =>
    intro stack rest _
    have simple : value.NoRepeats := by
      rcases wordValue_cases known with rfl | ⟨flag, rfl⟩ | rfl <;> trivial
    exact .inl ⟨simple, findRepeats_unmarked (unmarked_word units) rest⟩
  | string chars =>
    intro stack rest noName
    exact .inl ⟨trivial, findRepeats_string chars noName⟩
  | @emptyArray space spaces =>
    intro stack rest _
    refine .inl ⟨trivial, ?_⟩
    rw [List.append_assoc, List.cons_append, findRepeats, if_neg (by decide), if_pos rfl,
      findRepeats_unmarked (unmarked_spaces spaces)]
    exact findRepeats_close rest (.inr rfl)
  | @array elements space raw spaces _ ih =>
    intro stack rest _
    rw [List.append_assoc, List.cons_append, findRepeats, if_neg (by decide), if_pos rfl,
      findRepeats_unmarked (unmarked_spaces spaces)]
    exact ih stack rest
  | @lastElement value raw space _ spaces ih =>
    intro stack rest
    have first := ih (.array :: stack) (space ++ closeBracket :: rest)
      (head_after_spaces spaces (by decide) (by decide))
    rw [findRepeats_unmarked (unmarked_spaces spaces), findRepeats_close rest (.inr rfl)] at first
    simp only [List.append_assoc, List.singleton_append]
    exact first.congr (by simp [NoRepeatsElements])
  | @element value elements raw space gap others _ spaces gaps _ ih later =>
    intro stack rest
    have first := ih (.array :: stack) (space ++ comma :: (gap ++ (others ++ rest)))
      (head_after_spaces spaces (by decide) (by decide))
    rw [findRepeats_unmarked (unmarked_spaces spaces), ← List.cons_append,
      findRepeats_unmarked (unmarked_cons (.inl rfl) gaps)] at first
    simp only [List.append_assoc, List.cons_append] at first ⊢
    exact first.trans (later stack rest)
  | @emptyObject space spaces =>
    intro stack rest _
    refine .inl ⟨⟨List.nodup_nil, trivial⟩, ?_⟩
    rw [List.append_assoc, List.cons_append, findRepeats, if_pos rfl,
      findRepeats_unmarked (unmarked_spaces spaces)]
    exact findRepeats_close rest (.inl rfl)
  | @object members space raw spaces _ ih =>
    intro stack rest _
    rw [List.append_assoc, List.cons_append, findRepeats, if_pos rfl,
      findRepeats_unmarked (unmarked_spaces spaces)]
    exact (ih [] stack rest).congr (by simp [Value.NoRepeats, Fresh])
  | @lastMember name key value before after raw space named befores afters _ spaces ih =>
    intro keys stack rest
    have noName : (skipSpaces (space ++ closeBrace :: rest)).head? ≠ some colon :=
      head_after_spaces spaces (by decide) (by decide)
    have first := searched_member stack keys named befores afters noName ih
    rw [findRepeats_unmarked (unmarked_spaces spaces), findRepeats_close rest (.inl rfl)] at first
    simp only [List.append_assoc, List.cons_append, List.nil_append] at first ⊢
    exact first.congr (by simp [NoRepeatsMembers, Fresh])
  | @member name key value members before after raw space gap others named befores afters _ spaces
      gaps _ ih later =>
    intro keys stack rest
    have noName : (skipSpaces (space ++ comma :: (gap ++ (others ++ rest)))).head? ≠ some colon :=
      head_after_spaces spaces (by decide) (by decide)
    have first := searched_member stack keys named befores afters noName ih
    rw [findRepeats_unmarked (unmarked_spaces spaces), ← List.cons_append,
      findRepeats_unmarked (unmarked_cons (.inl rfl) gaps)] at first
    simp only [List.append_assoc, List.cons_append, List.nil_append] at first ⊢
    refine (first.trans (later (name :: keys) stack rest)).congr ?_
    rw [fresh_cons, NoRepeatsMembers]
    tauto

/-- A raw text is accepted as the value it denotes, if that does not repeat a name. -/
theorem parseRawJson_eq_ok {engine : Engine} {raw : Text} :
    parseRawJson engine raw context = .ok value ↔
      ∃ written, Json.Denotes raw written ∧ written.NoRepeats ∧ value = written.collapse := by
  have search : ∀ written, Json.Denotes raw written →
      Checks written.NoRepeats (assertNoDuplicateJsonProperties raw context) (.ok ()) := by
    rintro written ⟨before, inner, after, befores, afters, spells, rfl⟩
    have ends : skipSpaces after = [] := by
      have := skipSpaces_append afters (by simp [Starts] : Starts [])
      rwa [List.append_nil] at this
    have searched : Searched context (.value written) inner := searched_spells spells
    have found := searched [] after (by simp [ends])
    have rest : findRepeats context [] none (after ++ []) = findRepeats context [] none [] :=
      findRepeats_unmarked (unmarked_spaces afters) []
    rw [List.append_nil] at rest
    rw [rest] at found
    rw [assertNoDuplicateJsonProperties, List.append_assoc,
      findRepeats_unmarked (unmarked_spaces befores)]
    exact found
  constructor
  · intro done
    obtain ⟨_, passed, done⟩ := Transition.bind_eq_ok.mp done
    cases read : readText raw with
    | none =>
      rw [parse, read] at done
      cases done
    | some written =>
      rw [parse, read] at done
      cases done
      have denotes := readText_eq_some_iff.mp read
      rcases search written denotes with ⟨good, _⟩ | ⟨_, fault, failed⟩
      · exact ⟨written, denotes, good, rfl⟩
      · rw [passed] at failed
        cases failed
  · rintro ⟨written, denotes, good, rfl⟩
    rcases search written denotes with ⟨_, passed⟩ | ⟨bad, _⟩
    · rw [parseRawJson, passed, parse, readText_eq_some_iff.mpr denotes]
      rfl
    · exact absurd good bad

end Repeats
end OmegaEdit.ChangeLog
