import OmegaEdit.Library.Json

/-! The reader accepts what the grammar derives, with the same values. A word ends
where no unit of a word follows; all other parts end with a unit of their own. -/
namespace Json
open Utf16 Decimal
variable {text space rest digits raw word : Text} {unit : CodeUnit} {value : Value} {piece : Piece}
  {elements : List Element} {members : List Member}

lemma Spaces.nil : Spaces [] := by simp [Spaces]

lemma Spaces.append {other : Text} (spaces : Spaces text) (others : Spaces other) :
    Spaces (text ++ other) := by
  intro unit mem
  rcases List.mem_append.mp mem with first | second
  · exact spaces unit first
  · exact others unit second

/-- The text does not begin with a space. -/
def Starts (text : Text) : Prop := ∀ unit ∈ text.head?, isSpace unit = false

/-- No word goes on into the text. -/
def Stops (text : Text) : Prop := ∀ unit ∈ text.head?, isWordUnit unit = false

lemma isWordUnit_of_isSpace (space : isSpace unit = true) :
    isWordUnit unit = false := by
  simp only [isSpace, Bool.or_eq_true, beq_iff_eq] at space
  rcases space with ((rfl | rfl) | rfl) | rfl <;> decide

lemma Stops.spaces (spaces : Spaces space) (stops : Stops rest) :
    Stops (space ++ rest) := by
  cases space with
  | nil => exact stops
  | cons unit space =>
    rintro other ⟨⟩
    exact isWordUnit_of_isSpace (spaces unit (by simp))

lemma stops_nil : Stops [] := by simp [Stops]

lemma stops_cons (other : isWordUnit unit = false) :
    Stops (unit :: rest) := by
  rintro first ⟨⟩
  exact other

lemma starts_cons (other : isSpace unit = false) :
    Starts (unit :: rest) := by
  rintro first ⟨⟩
  exact other

lemma skipSpaces_append (spaces : Spaces space) (starts : Starts rest) :
    skipSpaces (space ++ rest) = rest := by
  rw [skipSpaces, List.dropWhile_append_of_pos spaces]
  cases rest with
  | nil => rfl
  | cons unit rest => rw [List.dropWhile_cons_of_neg (by simp [starts unit rfl])]

lemma skipSpaces_mark (spaces : Spaces space) (other : isSpace unit = false) :
    skipSpaces (space ++ unit :: rest) = unit :: rest :=
  skipSpaces_append spaces (starts_cons other)

/-- What is skipped are spaces, and what is left begins with another unit. -/
lemma skipSpaces_spec (text : Text) :
    ∃ space, Spaces space ∧ text = space ++ skipSpaces text ∧ Starts (skipSpaces text) := by
  refine ⟨text.takeWhile isSpace, ?_, (List.takeWhile_append_dropWhile).symm, ?_⟩
  · intro unit mem
    exact List.all_eq_true.mp List.all_takeWhile unit mem
  · rintro unit head
    have := List.head?_dropWhile_not isSpace text
    rw [skipSpaces] at head
    rw [Option.mem_def.mp head] at this
    simpa using this

lemma exists_mark {β : Type} {onward : CodeUnit → Text → Option β} {result : β}
    (found : (match skipSpaces text with
      | [] => none
      | unit :: rest => onward unit rest) = some result) :
    ∃ space unit rest, Spaces space ∧ text = space ++ unit :: rest ∧ onward unit rest = some result := by
  obtain ⟨space, spaces, split, _⟩ := skipSpaces_spec text
  generalize skipSpaces text = skipped at found split
  cases skipped with
  | nil => cases found
  | cons unit rest => exact ⟨space, unit, rest, spaces, split, found⟩

section Chars

lemma hexFold_cons {value digit : CodeUnit} :
    hexFold value (digit :: digits) = some unit ↔
      ∃ place, hexValue digit = some place ∧ hexFold (value * 16 + place) digits = some unit := by
  rw [hexFold, List.foldlM_cons, Option.bind_eq_bind, Option.bind_map, Option.bind_eq_some_iff]
  rfl

lemma readChars_hex {value : CodeUnit} {more : Nat} (length : digits.length = more + 1)
    (named : hexFold value digits = some unit) :
    readChars (.hex more value) (digits ++ raw) =
      (readChars .outside raw).map fun (text, rest) => (unit :: text, rest) := by
  induction digits generalizing value more with
  | nil => cases length
  | cons digit digits ih =>
    obtain ⟨place, read, named⟩ := hexFold_cons.mp named
    rw [List.cons_append, readChars, read]
    cases digits with
    | nil =>
      obtain rfl : more = 0 := by simpa using length
      obtain rfl := Option.some.inj named
      cases onward : readChars .outside raw with
      | none | some found => simp [onward]
    | cons next digits =>
      cases more with
      | zero => simp at length
      | succ more => exact ih (by simpa using length) named

lemma Chars.readChars (chars : Chars text raw) (rest : Text) :
    readChars .outside (raw ++ quote :: rest) = some (text, rest) := by
  induction chars with
  | nil => rfl
  | @plain unit text raw notQuote notEscape printable chars ih =>
    rw [List.cons_append, Json.readChars, if_neg notQuote, if_neg notEscape, if_neg printable, ih]
    rfl
  | @escape letter unit text raw short escaped chars ih =>
    rw [List.cons_append, List.cons_append, Json.readChars, if_neg (by decide), if_pos rfl,
      Json.readChars, if_neg short, escaped, ih]
    rfl
  | @hex a b c d unit text raw escaped chars ih =>
    have digits : Json.readChars (.hex 3 0) ([a, b, c, d] ++ (raw ++ quote :: rest)) = _ :=
      readChars_hex rfl escaped
    rw [List.cons_append, List.cons_append, Json.readChars, if_neg (by decide), if_pos rfl,
      Json.readChars, if_pos rfl]
    simpa [ih] using digits

/-- What a reader of characters has behind it when it reaches a quote. -/
def Reads : Escape → Text → Text → Prop
  | .outside, text, raw => Chars text raw
  | .letter, text, raw => Chars text (backslash :: raw)
  | .hex more value, text, raw => ∃ unit rest key digits, text = unit :: rest ∧ Chars rest key ∧
      raw = digits ++ key ∧ digits.length = more + 1 ∧ hexFold value digits = some unit

lemma readChars_sound {escape : Escape} (found : readChars escape raw = some (text, rest)) :
    ∃ key, Reads escape text key ∧ raw = key ++ quote :: rest := by
  induction raw generalizing escape text with
  | nil => cases escape <;> cases found
  | cons unit raw ih =>
    cases escape with
    | outside =>
      rw [readChars] at found
      split at found
      · rename_i same
        cases found
        exact ⟨[], .nil, by rw [same]; rfl⟩
      · rename_i notQuote
        split at found
        · rename_i same
          obtain ⟨key, chars, rfl⟩ := ih found
          exact ⟨backslash :: key, chars, by rw [same]; rfl⟩
        · rename_i notEscape
          split at found
          · cases found
          · rename_i printable
            obtain ⟨⟨later, _⟩, read, found⟩ := Option.bind_eq_some_iff.mp found
            cases found
            obtain ⟨key, chars, rfl⟩ := ih read
            exact ⟨unit :: key, .plain notQuote notEscape printable chars, rfl⟩
    | letter =>
      rw [readChars] at found
      split at found
      · rename_i same
        obtain ⟨key, ⟨char, later, others, digits, rfl, chars, rfl, length, named⟩, rfl⟩ := ih found
        match digits, length with
        | [a, b, c, d], _ =>
          refine ⟨unit :: a :: b :: c :: d :: others, ?_, rfl⟩
          rw [same]
          exact .hex named chars
      · rename_i short
        obtain ⟨char, escaped, found⟩ := Option.bind_eq_some_iff.mp found
        obtain ⟨⟨later, _⟩, read, found⟩ := Option.bind_eq_some_iff.mp found
        cases found
        obtain ⟨key, chars, rfl⟩ := ih read
        exact ⟨unit :: key, .escape short escaped chars, rfl⟩
    | hex more value =>
      rw [readChars] at found
      obtain ⟨digit, named, found⟩ := Option.bind_eq_some_iff.mp found
      cases more with
      | zero =>
        obtain ⟨⟨later, _⟩, read, found⟩ := Option.bind_eq_some_iff.mp found
        cases found
        obtain ⟨key, chars, rfl⟩ := ih read
        exact ⟨unit :: key, ⟨_, _, key, [unit], rfl, chars, rfl, rfl,
          hexFold_cons.mpr ⟨digit, named, rfl⟩⟩, rfl⟩
      | succ more =>
        obtain ⟨key, ⟨char, later, others, digits, rfl, chars, rfl, length, folded⟩, rfl⟩ := ih found
        refine ⟨unit :: (digits ++ others), ⟨_, _, others, unit :: digits, rfl, chars, rfl,
          by simp [length], hexFold_cons.mpr ⟨digit, named, folded⟩⟩, rfl⟩

end Chars

/-- A unit that a value begins with. -/
def Opens (unit : CodeUnit) : Prop :=
  unit = quote ∨ unit = openBracket ∨ unit = openBrace ∨ isWordUnit unit = true

lemma Opens.notSpace (opens : Opens unit) : isSpace unit = false := by
  rcases opens with rfl | rfl | rfl | word
  · decide
  · decide
  · decide
  · cases space : isSpace unit with
    | false => rfl
    | true => exact absurd word (by simp [isWordUnit_of_isSpace space])

lemma Opens.ne {mark : CodeUnit} (opens : Opens unit)
    (closes : mark = closeBracket ∨ mark = closeBrace ∨ mark = comma ∨ mark = colon) :
    unit ≠ mark := by
  rintro rfl
  rcases opens with same | same | same | word
  · rcases closes with rfl | rfl | rfl | rfl <;> exact absurd same (by decide)
  · rcases closes with rfl | rfl | rfl | rfl <;> exact absurd same (by decide)
  · rcases closes with rfl | rfl | rfl | rfl <;> exact absurd same (by decide)
  · rcases closes with rfl | rfl | rfl | rfl <;> exact absurd word (by decide)

lemma wordValue_cases (known : wordValue word = some value) :
    value = .null ∨ (∃ flag, value = .bool flag) ∨ value = .number word := by
  rw [wordValue] at known
  split at known
  · exact .inl (Option.some.inj known).symm
  split at known
  · exact .inr (.inl ⟨true, (Option.some.inj known).symm⟩)
  split at known
  · exact .inr (.inl ⟨false, (Option.some.inj known).symm⟩)
  split at known
  · exact .inr (.inr (Option.some.inj known).symm)
  · cases known

lemma wordValue_ne_nil (known : wordValue word = some value) :
    word ≠ [] := by
  rintro rfl
  have none : wordValue [] = none := rfl
  rw [none] at known
  cases known

/-- Every part begins with a unit that opens a value. -/
lemma Spells.opens (spells : Spells piece raw) :
    ∃ unit rest, raw = unit :: rest ∧ Opens unit := by
  induction spells with
  | @word value word known units =>
    cases word with
    | nil => exact absurd rfl (wordValue_ne_nil known)
    | cons unit rest => exact ⟨unit, rest, rfl, .inr (.inr (.inr (units unit (by simp))))⟩
  | string chars => exact ⟨_, _, rfl, .inl rfl⟩
  | emptyArray | array => exact ⟨_, _, rfl, .inr (.inl rfl)⟩
  | lastElement _ _ ih | element _ _ _ _ ih =>
    obtain ⟨unit, rest, rfl, opens⟩ := ih
    exact ⟨unit, _, rfl, opens⟩
  | emptyObject | object => exact ⟨_, _, rfl, .inr (.inr (.inl rfl))⟩
  | lastMember | member => exact ⟨_, _, rfl, .inl rfl⟩

lemma Spells.starts (spells : Spells piece raw) :
    Starts (raw ++ rest) := by
  obtain ⟨unit, tail, rfl, opens⟩ := spells.opens
  exact starts_cons opens.notSpace

/-- What the reader is asked for to find a part. -/
def Piece.goal : Piece → Goal
  | .value _ => .value
  | .elements _ => .elements
  | .members _ => .members

/-- What may follow a part: after a value, nothing that would go on in a word. -/
def Piece.Follows (piece : Piece) (rest : Text) : Prop :=
  match piece with
  | .value _ => Stops rest
  | _ => True

lemma readWord_append (known : wordValue word = some value)
    (units : ∀ unit ∈ word, isWordUnit unit = true) (stops : Stops rest) :
    readWord (word ++ rest) = some (.value value, rest) := by
  have ends : rest.takeWhile isWordUnit = [] ∧ rest.dropWhile isWordUnit = rest := by
    cases rest with
    | nil => simp
    | cons unit rest =>
      have other := stops unit rfl
      simp [other]
  rw [readWord, List.takeWhile_append_of_pos units, List.dropWhile_append_of_pos units, ends.1,
    ends.2, List.append_nil, known]
  rfl

/-- The reader finds every part the grammar derives. -/
theorem Spells.read {fuel : Nat} (spells : Spells piece raw) (rest : Text)
    (follows : piece.Follows rest) (enough : 2 * raw.length ≤ fuel + 1) :
    read (fuel + 1) piece.goal (raw ++ rest) = some (piece, rest) := by
  induction spells generalizing rest fuel with
  | @word value word known units =>
    have found := readWord_append known units follows
    cases word with
    | nil => exact absurd rfl (wordValue_ne_nil known)
    | cons unit word =>
      have isWord := units unit (by simp)
      have ne {mark : CodeUnit} (other : isWordUnit mark = false) : unit ≠ mark := by
        rintro rfl
        exact absurd isWord (by simp [other])
      rw [Piece.goal, List.cons_append, Json.read, if_neg (ne (by decide)),
        if_neg (ne (by decide)), if_neg (ne (by decide))]
      exact found
  | @string text raw chars =>
    have found := chars.readChars rest
    rw [Piece.goal, List.append_assoc, List.cons_append, Json.read, if_pos rfl]
    simp only [List.singleton_append, found]
    rfl
  | @emptyArray space spaces =>
    rw [Piece.goal, List.append_assoc, List.cons_append, Json.read, if_neg (by decide),
      if_pos rfl, List.singleton_append, skipSpaces_mark spaces (by decide)]
    rfl
  | @array elements space raw spaces inner ih =>
    simp only [List.length_append, List.length_cons] at enough
    obtain ⟨fuel, rfl⟩ := Nat.exists_eq_succ_of_ne_zero (by omega : fuel ≠ 0)
    have found := ih rest trivial (by omega : _ ≤ fuel + 1)
    obtain ⟨unit, tail, rfl, opens⟩ := inner.opens
    rw [Piece.goal, List.append_assoc, List.cons_append, Json.read, if_neg (by decide),
      if_pos rfl, skipSpaces_append spaces inner.starts]
    simp only [List.cons_append, if_neg (opens.ne (.inl rfl))]
    rw [Piece.goal, List.cons_append] at found
    rw [found]
  | @lastElement value raw space element spaces ih =>
    simp only [List.length_append, List.length_cons] at enough
    obtain ⟨fuel, rfl⟩ := Nat.exists_eq_succ_of_ne_zero (by omega : fuel ≠ 0)
    have found := ih (space ++ closeBracket :: rest)
      (.spaces spaces (stops_cons (by decide))) (by omega : _ ≤ fuel + 1)
    rw [Piece.goal] at found
    rw [Piece.goal, Json.read]
    simp only [List.append_assoc, List.singleton_append, found,
      skipSpaces_mark spaces (by decide : isSpace closeBracket = false)]
    rfl
  | @element value elements raw space gap others element spaces gaps inner ih laterIh =>
    simp only [List.length_append, List.length_cons] at enough
    obtain ⟨fuel, rfl⟩ := Nat.exists_eq_succ_of_ne_zero (by omega : fuel ≠ 0)
    have found := ih (space ++ comma :: (gap ++ (others ++ rest)))
      (.spaces spaces (stops_cons (by decide))) (by omega : _ ≤ fuel + 1)
    have later := laterIh rest trivial (by omega : _ ≤ fuel + 1)
    dsimp only [Piece.goal] at found later
    rw [Piece.goal, Json.read]
    simp only [List.append_assoc, List.cons_append, found,
      skipSpaces_mark spaces (by decide : isSpace comma = false)]
    rw [if_neg (by decide), if_pos trivial, skipSpaces_append gaps inner.starts, later]
  | @emptyObject space spaces =>
    rw [Piece.goal, List.append_assoc, List.cons_append, Json.read, if_neg (by decide),
      if_neg (by decide), if_pos rfl, List.singleton_append, skipSpaces_mark spaces (by decide)]
    rfl
  | @object members space raw spaces inner ih =>
    simp only [List.length_append, List.length_cons] at enough
    obtain ⟨fuel, rfl⟩ := Nat.exists_eq_succ_of_ne_zero (by omega : fuel ≠ 0)
    have found := ih rest trivial (by omega : _ ≤ fuel + 1)
    obtain ⟨unit, tail, rfl, opens⟩ := inner.opens
    rw [Piece.goal, List.append_assoc, List.cons_append, Json.read, if_neg (by decide),
      if_neg (by decide), if_pos rfl, skipSpaces_append spaces inner.starts]
    simp only [List.cons_append, if_neg (opens.ne (.inr (.inl rfl)))]
    rw [Piece.goal, List.cons_append] at found
    rw [found]
  | @lastMember name key value before after raw space named befores afters member spaces ih =>
    simp only [List.length_append, List.length_cons] at enough
    obtain ⟨fuel, rfl⟩ := Nat.exists_eq_succ_of_ne_zero (by omega : fuel ≠ 0)
    have found := ih (space ++ closeBrace :: rest)
      (.spaces spaces (stops_cons (by decide))) (by omega : _ ≤ fuel + 1)
    rw [Piece.goal] at found
    rw [Piece.goal]
    simp only [List.append_assoc, List.cons_append, List.nil_append]
    rw [Json.read, if_neg (by simp)]
    simp only [named.readChars, skipSpaces_mark befores (by decide : isSpace colon = false),
      skipSpaces_append afters member.starts, found,
      skipSpaces_mark spaces (by decide : isSpace closeBrace = false)]
    rfl
  | @member name key value members before after raw space gap others named befores afters member
      spaces gaps inner ih laterIh =>
    simp only [List.length_append, List.length_cons] at enough
    obtain ⟨fuel, rfl⟩ := Nat.exists_eq_succ_of_ne_zero (by omega : fuel ≠ 0)
    have found := ih (space ++ comma :: (gap ++ (others ++ rest)))
      (.spaces spaces (stops_cons (by decide))) (by omega : _ ≤ fuel + 1)
    have later := laterIh rest trivial (by omega : _ ≤ fuel + 1)
    dsimp only [Piece.goal] at found later
    rw [Piece.goal]
    simp only [List.append_assoc, List.cons_append, List.nil_append]
    rw [Json.read, if_neg (by simp)]
    simp only [named.readChars, skipSpaces_mark befores (by decide : isSpace colon = false),
      skipSpaces_append afters member.starts, found, later, skipSpaces_append gaps inner.starts,
      skipSpaces_mark spaces (by decide : isSpace comma = false)]
    rfl

lemma readWord_sound (found : readWord text = some (piece, rest)) :
    ∃ raw, text = raw ++ rest ∧ Spells piece raw := by
  obtain ⟨value, known, found⟩ := Option.bind_eq_some_iff.mp found
  cases found
  refine ⟨text.takeWhile isWordUnit, List.takeWhile_append_dropWhile.symm, .word known ?_⟩
  intro unit mem
  exact List.all_eq_true.mp List.all_takeWhile unit mem

/-- What the reader finds is derived by the grammar. -/
theorem read_sound {fuel : Nat} {goal : Goal} (found : read fuel goal text = some (piece, rest)) :
    ∃ raw, text = raw ++ rest ∧ Spells piece raw := by
  induction fuel generalizing goal text rest piece with
  | zero => cases found
  | succ fuel ih =>
    cases goal with
    | value =>
      cases text with
      | nil => cases found
      | cons unit text =>
        rw [read] at found
        split at found
        · rename_i same
          obtain ⟨⟨chars, later⟩, inner, found⟩ := Option.bind_eq_some_iff.mp found
          cases found
          obtain ⟨key, spelled, rfl⟩ := readChars_sound inner
          exact ⟨quote :: key ++ [quote], by simp [same], .string spelled⟩
        split at found
        · rename_i same
          replace found := exists_mark found
          obtain ⟨space, next, after, spaces, rfl, found⟩ := found
          split at found
          · rename_i closed
            cases found
            exact ⟨openBracket :: space ++ [closeBracket], by simp [same, closed],
              .emptyArray spaces⟩
          · split at found
            · rename_i elements later inner
              cases found
              obtain ⟨raw, split, spelled⟩ := ih inner
              exact ⟨openBracket :: space ++ raw, by simp [same, split], .array spaces spelled⟩
            · cases found
        split at found
        · rename_i same
          replace found := exists_mark found
          obtain ⟨space, next, after, spaces, rfl, found⟩ := found
          split at found
          · rename_i closed
            cases found
            exact ⟨openBrace :: space ++ [closeBrace], by simp [same, closed], .emptyObject spaces⟩
          · split at found
            · rename_i members later inner
              cases found
              obtain ⟨raw, split, spelled⟩ := ih inner
              exact ⟨openBrace :: space ++ raw, by simp [same, split], .object spaces spelled⟩
            · cases found
        exact readWord_sound found
    | elements =>
      rw [read] at found
      split at found
      · rename_i value later inner
        obtain ⟨raw, rfl, spelled⟩ := ih inner
        replace found := exists_mark found
        obtain ⟨space, next, after, spaces, rfl, found⟩ := found
        split at found
        · rename_i closed
          cases found
          exact ⟨raw ++ space ++ [closeBracket], by simp [closed], .lastElement spelled spaces⟩
        split at found
        · rename_i separated
          split at found
          · rename_i elements last others
            cases found
            obtain ⟨tail, split, rest⟩ := ih others
            obtain ⟨gap, gaps, whole, _⟩ := skipSpaces_spec after
            rw [split] at whole
            exact ⟨raw ++ space ++ comma :: gap ++ tail, by simp [separated, whole],
              .element spelled spaces gaps rest⟩
          · cases found
        · cases found
      · cases found
    | members =>
      cases text with
      | nil => cases found
      | cons unit text =>
        rw [read] at found
        split at found
        · cases found
        rename_i quoted
        rw [ne_eq, not_not] at quoted
        split at found
        · cases found
        rename_i name afterName readName
        obtain ⟨key, named, rfl⟩ := readChars_sound readName
        replace found := exists_mark found
        obtain ⟨before, mark, afterMark, befores, rfl, found⟩ := found
        split at found
        · cases found
        rename_i coloned
        rw [ne_eq, not_not] at coloned
        split at found
        · rename_i value later inner
          obtain ⟨raw, split, spelled⟩ := ih inner
          obtain ⟨after, afters, whole, _⟩ := skipSpaces_spec afterMark
          rw [split] at whole
          replace found := exists_mark found
          obtain ⟨space, next, afterNext, spaces, rfl, found⟩ := found
          split at found
          · rename_i closed
            cases found
            exact ⟨_, by simp [quoted, coloned, whole, closed],
              .lastMember named befores afters spelled spaces⟩
          split at found
          · rename_i separated
            split at found
            · rename_i members last others
              cases found
              obtain ⟨tail, split, rest⟩ := ih others
              obtain ⟨gap, gaps, wholeGap, _⟩ := skipSpaces_spec afterNext
              rw [split] at wholeGap
              exact ⟨_, by simp [quoted, coloned, whole, separated, wholeGap],
                .member named befores afters spelled spaces gaps rest⟩
            · cases found
          · cases found
        · cases found

/-- A text is read as the value it denotes. -/
theorem readText_eq_some_iff :
    readText text = some value ↔ Denotes text value := by
  constructor
  · intro found
    rw [readText] at found
    split at found
    · rename_i value rest inner
      split at found
      · rename_i ends
        cases found
        obtain ⟨raw, split, spelled⟩ := read_sound inner
        obtain ⟨before, befores, whole, _⟩ := skipSpaces_spec text
        obtain ⟨after, afters, left, _⟩ := skipSpaces_spec rest
        rw [List.isEmpty_iff.mp ends, List.append_nil] at left
        refine ⟨before, raw, rest, befores, ?_, spelled, ?_⟩
        · rw [left]
          exact afters
        · rw [whole, split, List.append_assoc]
      · cases found
    · cases found
  · rintro ⟨before, raw, after, befores, afters, spelled, rfl⟩
    have stops : Stops after := by
      have := Stops.spaces afters stops_nil
      rwa [List.append_nil] at this
    have skipped : skipSpaces (before ++ raw ++ after) = raw ++ after := by
      rw [List.append_assoc]
      exact skipSpaces_append befores spelled.starts
    obtain ⟨unit, tail, rfl, _⟩ := spelled.opens
    obtain ⟨fuel, units⟩ := Nat.exists_eq_succ_of_ne_zero
      (by simp : 2 * (before ++ unit :: tail ++ after).length ≠ 0)
    have found := spelled.read after stops (by simp at units ⊢; omega : _ ≤ fuel + 1)
    have ends : skipSpaces after = [] := by
      have := skipSpaces_append afters (by simp [Starts] : Starts [])
      rwa [List.append_nil] at this
    rw [Piece.goal] at found
    rw [readText, skipped, units, found]
    simp [ends]

section Layout

/-- An element and its spelling. -/
structure Element where
  raw : Text
  value : Value

/-- A member, the spelling of its name between the quotes and that of its value. -/
structure Member where
  name : Text
  key : Text
  raw : Text
  value : Value

/-- How the elements of an array are laid out up to its closing bracket. -/
inductive LaidElements : List Element → Text → Prop where
  | last {element : Element} {space : Text} (spells : Spells (.value element.value) element.raw)
      (spaces : Spaces space) : LaidElements [element] (element.raw ++ space ++ [closeBracket])
  | cons {element : Element} {elements : List Element} {space gap rest : Text}
      (spells : Spells (.value element.value) element.raw) (spaces : Spaces space) (gaps : Spaces gap)
      (others : LaidElements elements rest) :
      LaidElements (element :: elements) (element.raw ++ space ++ comma :: gap ++ rest)

/-- How the members of an object are laid out up to its closing brace. -/
inductive LaidMembers : List Member → Text → Prop where
  | last {member : Member} {before after space : Text} (named : Chars member.name member.key)
      (befores : Spaces before) (afters : Spaces after)
      (spells : Spells (.value member.value) member.raw) (spaces : Spaces space) :
      LaidMembers [member]
        (quote :: member.key ++ [quote] ++ before ++ colon :: after ++ member.raw ++ space ++
          [closeBrace])
  | cons {member : Member} {members : List Member} {before after space gap rest : Text}
      (named : Chars member.name member.key) (befores : Spaces before) (afters : Spaces after)
      (spells : Spells (.value member.value) member.raw) (spaces : Spaces space) (gaps : Spaces gap)
      (others : LaidMembers members rest) :
      LaidMembers (member :: members)
        (quote :: member.key ++ [quote] ++ before ++ colon :: after ++ member.raw ++ space ++
          comma :: gap ++ rest)

/-- The members without their spelling. -/
def values (members : List Member) : List (Text × Value) :=
  members.map fun member => (member.name, member.value)

lemma LaidElements.spells (laid : LaidElements elements raw) :
    Spells (.elements (elements.map Element.value)) raw := by
  induction laid with
  | last spells spaces => exact .lastElement spells spaces
  | cons spells spaces gaps _ ih => exact .element spells spaces gaps ih

lemma LaidMembers.spells (laid : LaidMembers members raw) :
    Spells (.members (values members)) raw := by
  induction laid with
  | last named befores afters spells spaces => exact .lastMember named befores afters spells spaces
  | cons named befores afters spells spaces gaps _ ih =>
    exact .member named befores afters spells spaces gaps ih

/-- What spells elements or members is laid out. -/
def Laid : Piece → Text → Prop
  | .value _, _ => True
  | .elements values, raw => ∃ elements, elements.map Element.value = values ∧ LaidElements elements raw
  | .members named, raw => ∃ members, values members = named ∧ LaidMembers members raw

lemma Spells.laid (spells : Spells piece raw) : Laid piece raw := by
  induction spells with
  | word | string | emptyArray | array | emptyObject | object => trivial
  | @lastElement value raw space element spaces =>
    exact ⟨[⟨raw, value⟩], rfl, .last element spaces⟩
  | @element value elements raw space gap rest element spaces gaps _ _ ih =>
    obtain ⟨others, rfl, laid⟩ := ih
    exact ⟨⟨raw, value⟩ :: others, rfl, .cons element spaces gaps laid⟩
  | @lastMember name key value before after raw space named befores afters member spaces =>
    exact ⟨[⟨name, key, raw, value⟩], rfl, .last named befores afters member spaces⟩
  | @member name key value members before after raw space gap rest named befores afters member spaces
      gaps _ _ ih =>
    obtain ⟨others, rfl, laid⟩ := ih
    exact ⟨⟨name, key, raw, value⟩ :: others, rfl, .cons named befores afters member spaces gaps laid⟩

/-- Each container takes two units. -/
def NestingFits : Piece → Text → Prop
  | .value value, raw => 2 * value.nesting ≤ raw.length
  | .elements elements, raw => 2 * nestingElements elements + 1 ≤ raw.length
  | .members members, raw => 2 * nestingMembers members + 1 ≤ raw.length

lemma Spells.nesting (spells : Spells piece raw) :
    NestingFits piece raw := by
  induction spells with
  | word known =>
    rcases wordValue_cases known with rfl | ⟨_, rfl⟩ | rfl <;> exact Nat.zero_le _
  | string => exact Nat.zero_le _
  | emptyArray => simp [NestingFits, Value.nesting, nestingElements]
  | array _ _ ih =>
    simp only [NestingFits, Value.nesting, List.length_append, List.length_cons] at ih ⊢
    omega
  | lastElement _ _ ih =>
    simp only [NestingFits, nestingElements, List.length_append, List.length_cons] at ih ⊢
    omega
  | element _ _ _ _ ih others =>
    simp only [NestingFits, nestingElements, List.length_append, List.length_cons] at ih others ⊢
    omega
  | emptyObject => simp [NestingFits, Value.nesting, nestingMembers]
  | object _ _ ih =>
    simp only [NestingFits, Value.nesting, List.length_append, List.length_cons] at ih ⊢
    omega
  | lastMember _ _ _ _ _ ih =>
    simp only [NestingFits, nestingMembers, List.length_append, List.length_cons] at ih ⊢
    omega
  | member _ _ _ _ _ _ _ ih others =>
    simp only [NestingFits, nestingMembers, List.length_append, List.length_cons] at ih others ⊢
    omega

lemma LaidElements.of_mem (laid : LaidElements elements raw) {element : Element}
    (mem : element ∈ elements) :
    Spells (.value element.value) element.raw ∧ element.raw.length ≤ raw.length := by
  induction laid with
  | last spells _ =>
    obtain rfl := List.mem_singleton.mp mem
    exact ⟨spells, by simp⟩
  | cons spells _ _ _ ih =>
    simp only [List.length_append]
    rcases List.mem_cons.mp mem with rfl | later
    · exact ⟨spells, by omega⟩
    · obtain ⟨spells, shorter⟩ := ih later
      exact ⟨spells, by omega⟩

lemma LaidMembers.of_mem (laid : LaidMembers members raw) {member : Member} (mem : member ∈ members) :
    Spells (.value member.value) member.raw ∧ member.key.length + 2 + member.raw.length ≤ raw.length := by
  induction laid with
  | last _ _ _ spells _ =>
    obtain rfl := List.mem_singleton.mp mem
    simp only [List.length_append, List.length_cons, List.length_nil]
    exact ⟨spells, by omega⟩
  | cons _ _ _ spells _ _ _ ih =>
    simp only [List.length_append, List.length_cons, List.length_nil]
    rcases List.mem_cons.mp mem with rfl | later
    · exact ⟨spells, by omega⟩
    · obtain ⟨spells, shorter⟩ := ih later
      exact ⟨spells, by omega⟩

end Layout

end Json
