import OmegaEdit.Library.RegexSyntax

/-! The guard of the patterns in an options schema: one pass over the text with a stack of group
contexts. A character stands for a byte. When a group is closed its context is dropped, and the
context around it is not told what was found there, so the guard only sees what stands in a
quantified group itself, and not in the groups inside of it. -/
namespace OmegaEdit.SchemaRegex
open RegexSyntax

structure RegexGroupContext where
  hasQuantifiedAtom : Bool
  hasAlternation : Bool
deriving DecidableEq, Repr

/-- The variables of the loop; the innermost group comes first. -/
structure RegexGuard where
  escaped : Bool
  inCharacterClass : Bool
  lastAtomExists : Bool
  lastAtomIsGroup : Bool
  lastGroupHasRiskyContent : Bool
  groups : List RegexGroupContext
deriving DecidableEq, Repr

/-- The length of a range quantifier without its opening brace: digits and commas up to a closing brace. -/
def rangeQuantifier (hasDigit : Bool) : List Char → Option Nat
  | [] => none
  | ch :: rest =>
    if ch = '}' then if hasDigit then some 1 else none
    else if ch.isDigit then (rangeQuantifier true rest).map (· + 1)
    else if ch = ',' then (rangeQuantifier hasDigit rest).map (· + 1)
    else none

namespace RegexGuard
variable (guard : RegexGuard)

def start : RegexGuard := ⟨false, false, false, false, false, []⟩

def rememberAtom (isGroup groupHasRiskyContent : Bool) : RegexGuard :=
  { guard with
    lastAtomExists := true
    lastAtomIsGroup := isGroup
    lastGroupHasRiskyContent := groupHasRiskyContent }

def forgetAtom : RegexGuard :=
  { guard with lastAtomExists := false, lastAtomIsGroup := false, lastGroupHasRiskyContent := false }

/-- What is found is noted in the innermost group. -/
def note (quantified alternation : Bool) : List RegexGroupContext → List RegexGroupContext
  | [] => []
  | group :: groups => ⟨group.hasQuantifiedAtom || quantified, group.hasAlternation || alternation⟩ :: groups

def applyQuantifier : Option RegexGuard :=
  if !guard.lastAtomExists then some guard
  else if guard.lastAtomIsGroup && guard.lastGroupHasRiskyContent then none
  else some { guard.forgetAtom with groups := note true false guard.groups }

/-- A character outside of escapes and classes: the guard behind it and how many more characters are
passed over, or `none` for a pattern that is refused. -/
def readSyntax (ch : Char) (rest : List Char) : Option (RegexGuard × Nat) :=
  match ch with
  | '[' => some ({ guard.rememberAtom false false with inCharacterClass := true }, 0)
  | '(' =>
    if rest.head? = some '?' then none
    else some ({ guard.forgetAtom with groups := ⟨false, false⟩ :: guard.groups }, 0)
  | ')' =>
    match guard.groups with
    | [] => none
    | group :: groups =>
      some ({ guard with groups }.rememberAtom true (group.hasQuantifiedAtom || group.hasAlternation), 0)
  | '|' => some ({ guard.forgetAtom with groups := note false true guard.groups }, 0)
  | '*' | '+' | '?' => guard.applyQuantifier.map (·, 0)
  | '{' =>
    match rangeQuantifier false rest with
    | some length => guard.applyQuantifier.map (·, length)
    | none => some (guard.forgetAtom, 0)
  | '^' | '$' => some (guard.forgetAtom, 0)
  | _ => some (guard.rememberAtom false false, 0)

def read (ch : Char) (rest : List Char) : Option (RegexGuard × Nat) :=
  if guard.escaped then
    if ch.isDigit then none else some ({ guard.rememberAtom false false with escaped := false }, 0)
  else if ch = '\\' then some ({ guard with escaped := true }, 0)
  else if guard.inCharacterClass then
    some (if ch = ']' then { guard with inCharacterClass := false } else guard, 0)
  else guard.readSyntax ch rest

/-- The loop over the text, of which some characters are still to be passed over. -/
def run : Nat → RegexGuard → List Char → Option RegexGuard
  | _, guard, [] => some guard
  | skip + 1, guard, _ :: rest => run skip guard rest
  | 0, guard, ch :: rest =>
    match guard.read ch rest with
    | none => none
    | some (next, skip) => run skip next rest

end RegexGuard

def schemaRegexIsSafe (patternText : List Char) : Bool :=
  match RegexGuard.run 0 .start patternText with
  | none => false
  | some guard => !guard.escaped && !guard.inCharacterClass && guard.groups.isEmpty

namespace RegexGuard
variable {guard next final : RegexGuard} {ch : Char} {text rest : List Char} {regex : Regex}

/-- The guard is neither behind a backslash nor in a class. -/
structure Outside (guard : RegexGuard) : Prop where
  escaped : guard.escaped = false
  inCharacterClass : guard.inCharacterClass = false

lemma run_cons (ran : run 0 guard (ch :: rest) = some final) :
    ∃ next skip, guard.read ch rest = some (next, skip) ∧ run skip next rest = some final := by
  rw [run] at ran
  split at ran
  · cases ran
  · rename_i next skip step
    exact ⟨next, skip, step, ran⟩

lemma run_skip (guard : RegexGuard) (passed rest : List Char) :
    run passed.length guard (passed ++ rest) = run 0 guard rest := by
  induction passed with
  | nil => rfl
  | cons ch passed ih => exact ih

lemma Outside.run_cons (outside : Outside guard) (ran : run 0 guard (ch :: rest) = some final)
    (unescaped : ch ≠ '\\') :
    ∃ next skip, guard.readSyntax ch rest = some (next, skip) ∧ run skip next rest = some final := by
  obtain ⟨next, skip, step, ran⟩ := RegexGuard.run_cons ran
  rw [read, outside.escaped, outside.inCharacterClass, if_neg Bool.false_ne_true, if_neg unescaped,
    if_neg Bool.false_ne_true] at step
  exact ⟨next, skip, step, ran⟩

lemma Outside.remember (outside : Outside guard) (isGroup risky : Bool) :
    Outside (guard.rememberAtom isGroup risky) := ⟨outside.escaped, outside.inCharacterClass⟩

lemma Outside.forget (outside : Outside guard) (groups : List RegexGroupContext) :
    Outside { guard.forgetAtom with groups } := ⟨outside.escaped, outside.inCharacterClass⟩

lemma note_note (groups : List RegexGroupContext) (quantified alternation quantified' alternation' : Bool) :
    note quantified' alternation' (note quantified alternation groups) =
      note (quantified || quantified') (alternation || alternation') groups := by
  cases groups with
  | nil => rfl
  | cons group groups => simp only [note, Bool.or_assoc]

lemma note_false (groups : List RegexGroupContext) : note false false groups = groups := by
  cases groups with
  | nil => rfl
  | cons group groups => simp only [note, Bool.or_false]

/-- What stands in a pattern outside of its groups. -/
def isOpen (body : Regex) : Bool := body.hasQuantified || body.hasAlternation

/-- The guard has passed over a pattern: what stands in it outside of its groups is noted, and no
quantified group in it has anything to note. -/
structure Passed (guard : RegexGuard) (regex : Regex) (next : RegexGuard) : Prop where
  outside : Outside next
  groups : next.groups = note regex.hasQuantified regex.hasAlternation guard.groups
  direct : regex.quantifiesGroup isOpen = false

/-- The last atom is remembered. -/
structure Remembers (regex : Regex) (next : RegexGuard) : Prop where
  exists_ : next.lastAtomExists = true
  group : ∀ body, regex = .group body → next.lastAtomIsGroup = true ∧ next.lastGroupHasRiskyContent = isOpen body

lemma Outside.passes_character (outside : Outside guard) :
    Passed guard .character (guard.rememberAtom false false) where
  outside := outside.remember false false
  groups := (note_false guard.groups).symm
  direct := rfl

lemma remembers_character : Remembers .character (guard.rememberAtom false false) := ⟨rfl, nofun⟩

lemma Outside.run_plain (outside : Outside guard) (plain : ch ∉ syntaxCharacters)
    (ran : run 0 guard (ch :: rest) = some final) : run 0 (guard.rememberAtom false false) rest = some final := by
  simp only [syntaxCharacters, List.mem_cons, List.not_mem_nil, or_false, not_or] at plain
  obtain ⟨next, skip, step, ran⟩ := outside.run_cons ran plain.2.2.1
  rw [readSyntax] at step
  · cases step
    exact ran
  all_goals tauto

lemma Outside.run_plains (outside : Outside guard) (plain : ∀ ch ∈ text, ch ∉ syntaxCharacters)
    (ran : run 0 (guard.rememberAtom false false) (text ++ rest) = some final) :
    run 0 (guard.rememberAtom false false) rest = some final := by
  induction text with
  | nil => exact ran
  | cons ch text ih =>
    obtain ⟨first, others⟩ := List.forall_mem_cons.mp plain
    exact ih others ((outside.remember false false).run_plain first ran)

lemma run_escaped (unescaped : guard.escaped = false) (ran : run 0 guard ('\\' :: ch :: rest) = some final) :
    ch.isDigit = false ∧ run 0 (guard.rememberAtom false false) rest = some final := by
  obtain ⟨_, _, step, ran⟩ := run_cons ran
  rw [read, unescaped, if_neg Bool.false_ne_true, if_pos rfl] at step
  cases step
  obtain ⟨_, _, step, ran⟩ := run_cons ran
  rw [read, if_pos rfl] at step
  split at step
  · cases step
  · rename_i undigit
    cases step
    refine ⟨Bool.not_eq_true _ ▸ undigit, ?_⟩
    rw [← ran]
    simp only [rememberAtom, unescaped]

lemma Outside.run_escape (outside : Outside guard) (escape : AtomEscape text)
    (ran : run 0 guard ('\\' :: text ++ rest) = some final) :
    run 0 (guard.rememberAtom false false) rest = some final := by
  cases escape with
  | decimal nonempty each =>
    cases text with
    | nil => exact absurd rfl nonempty
    | cons ch text =>
      have undigit := (run_escaped outside.escaped ran).1
      rw [each ch List.mem_cons_self] at undigit
      cases undigit
  | letter _ | identity _ => exact (run_escaped outside.escaped ran).2
  | @control ch letter =>
    refine (outside.remember false false).run_plain ?_ (run_escaped outside.escaped ran).2
    intro special
    have unlettered : ∀ ch ∈ syntaxCharacters, ch.isAlpha = false :=
      List.forall_iff_forall_mem.mp (by decide)
    rw [unlettered ch special] at letter
    cases letter
  | code width each =>
    have plain : ∀ ch ∈ hexDigits, ch ∉ syntaxCharacters :=
      List.forall_iff_forall_mem.mp (by decide)
    exact outside.run_plains (fun ch there => plain ch (each ch there)) (run_escaped outside.escaped ran).2

lemma run_ranges (unescaped : guard.escaped = false) (inside : guard.inCharacterClass = true)
    (remembered : guard.rememberAtom false false = guard) (ranges : ClassRanges text)
    (ran : run 0 guard (text ++ ']' :: rest) = some final) :
    run 0 { guard with inCharacterClass := false } rest = some final := by
  induction ranges with
  | nil =>
    obtain ⟨_, _, step, ran⟩ := run_cons ran
    rw [read, if_neg (ne_true_of_eq_false unescaped), if_neg (by decide), if_pos inside, if_pos rfl] at step
    cases step
    exact ran
  | plain within _ ih =>
    obtain ⟨_, _, step, ran⟩ := run_cons ran
    rw [read, if_neg (ne_true_of_eq_false unescaped), if_neg within.1, if_pos inside, if_neg within.2] at step
    cases step
    exact ih ran
  | escaped _ ih => exact ih (remembered ▸ (run_escaped unescaped ran).2)

lemma Outside.run_class (outside : Outside guard) (ranges : ClassRanges text)
    (ran : run 0 guard ('[' :: (text ++ [']']) ++ rest) = some final) :
    run 0 (guard.rememberAtom false false) rest = some final := by
  obtain ⟨_, _, step, ran⟩ := outside.run_cons ran (by decide)
  cases step
  rw [List.append_eq, List.append_assoc, List.singleton_append] at ran
  have left := run_ranges (by exact outside.escaped) rfl rfl ranges ran
  simpa only [rememberAtom, outside.inCharacterClass] using left

lemma rangeQuantifier_digits {hasDigit : Bool} (digits : ∀ ch ∈ text, ch.isDigit = true) (rest : List Char) :
    rangeQuantifier hasDigit (text ++ rest) =
      (rangeQuantifier (hasDigit || !text.isEmpty) rest).map (· + text.length) := by
  induction text generalizing hasDigit with
  | nil => simp
  | cons ch text ih =>
    obtain ⟨digit, digits⟩ := List.forall_mem_cons.mp digits
    have unclosed : ch ≠ '}' := by
      rintro rfl
      cases digit
    rw [List.cons_append, rangeQuantifier, if_neg unclosed, if_pos digit, ih digits, Option.map_map]
    simp only [Bool.true_or, List.isEmpty_cons, Bool.not_false, Bool.or_true, List.length_cons]
    congr 1

lemma rangeQuantifier_eq {low bound : List Char} (nonempty : low ≠ []) (digits : ∀ ch ∈ low, ch.isDigit = true)
    (upper : bound = [] ∨ ∃ high, bound = ',' :: high ∧ ∀ ch ∈ high, ch.isDigit = true) :
    rangeQuantifier false (low ++ bound ++ '}' :: rest) = some ((low ++ bound).length + 1) := by
  have found : (false || !low.isEmpty) = true := by simpa using nonempty
  rw [List.append_assoc, rangeQuantifier_digits digits, found]
  rcases upper with rfl | ⟨high, rfl, digits⟩
  · simp [rangeQuantifier, Nat.add_comm]
  · rw [List.cons_append, rangeQuantifier, if_neg (by decide), if_neg (by decide), if_pos rfl,
      rangeQuantifier_digits digits]
    simp [rangeQuantifier]
    omega

/-- A quantifier that is accepted is not applied to a group with an open content. -/
lemma Outside.run_quantifier (outside : Outside guard) (remembers : Remembers regex guard)
    {quantifier : List Char} (applied : Quantifier quantifier)
    (ran : run 0 guard (quantifier ++ rest) = some final) :
    (∀ body, regex = .group body → isOpen body = false) ∧
      run 0 { guard.forgetAtom with groups := note true false guard.groups } rest = some final := by
  have apply_ : ∀ next, guard.applyQuantifier = some next →
      (∀ body, regex = .group body → isOpen body = false) ∧
        next = { guard.forgetAtom with groups := note true false guard.groups } := by
    intro next quantified
    rw [applyQuantifier, remembers.exists_, if_neg (by decide)] at quantified
    split at quantified
    · cases quantified
    · rename_i safe
      refine ⟨fun body own => ?_, (Option.some.inj quantified).symm⟩
      obtain ⟨isGroup, risky⟩ := remembers.group body own
      rw [isGroup, risky, Bool.true_and, Bool.not_eq_true] at safe
      exact safe
  cases applied with
  | symbol symbol =>
    obtain ⟨next, skip, step, ran⟩ := outside.run_cons ran (by rintro rfl; simp at symbol)
    obtain ⟨quantified, found, same⟩ : ∃ quantified, guard.applyQuantifier = some quantified ∧
        (quantified, 0) = (next, skip) := by
      rcases symbol with rfl | rfl | rfl <;> exact Option.map_eq_some_iff.mp step
    cases same
    obtain ⟨closed, rfl⟩ := apply_ _ found
    exact ⟨closed, ran⟩
  | @range low bound nonempty digits upper =>
    obtain ⟨next, skip, step, ran⟩ := outside.run_cons ran (by decide)
    simp only [readSyntax, List.append_eq, List.append_assoc, List.singleton_append] at step ran
    rw [← List.append_assoc, rangeQuantifier_eq nonempty digits upper] at step
    obtain ⟨quantified, found, same⟩ := Option.map_eq_some_iff.mp step
    cases same
    obtain ⟨closed, rfl⟩ := apply_ _ found
    refine ⟨closed, ?_⟩
    have passed := run_skip { guard.forgetAtom with groups := note true false guard.groups }
      (low ++ bound ++ ['}']) rest
    rw [← passed]
    simpa [Nat.add_assoc] using ran

/-- A group is an atom again, with what was noted in it. -/
lemma Outside.run_group {body : Regex} (outside : Outside guard)
    (ih : ∀ {guard : RegexGuard} {rest : List Char}, Outside guard → run 0 guard (text ++ rest) = some final →
      ∃ next, Passed guard body next ∧ run 0 next rest = some final)
    (ran : run 0 guard ('(' :: (text ++ [')']) ++ rest) = some final) :
    ∃ next, Passed guard (.group body) next ∧ Remembers (.group body) next ∧ run 0 next rest = some final := by
  obtain ⟨_, _, step, ran⟩ := outside.run_cons ran (by decide)
  rw [readSyntax] at step
  split at step
  · cases step
  cases step
  rw [List.append_eq, List.append_assoc] at ran
  obtain ⟨inner, passed, ran⟩ := ih (outside.forget (⟨false, false⟩ :: guard.groups)) ran
  obtain ⟨_, _, step, ran⟩ := passed.outside.run_cons ran (by decide)
  rw [readSyntax, passed.groups] at step
  cases step
  refine ⟨_, ?_, ?_, ran⟩
  · exact ⟨⟨passed.outside.escaped, passed.outside.inCharacterClass⟩, (note_false guard.groups).symm, passed.direct⟩
  · refine ⟨rfl, ?_⟩
    rintro _ ⟨⟩
    exact ⟨rfl, by simp only [rememberAtom, Bool.false_or, isOpen]⟩

/-- The guard passes over a pattern it accepts. -/
lemma passes_spelled {level : Level} (spells : Spells level regex text) (outside : Outside guard)
    (ran : run 0 guard (text ++ rest) = some final) :
    ∃ next, Passed guard regex next ∧ (level = .atom → Remembers regex next) ∧ run 0 next rest = some final := by
  induction spells generalizing guard rest with
  | alternation _ _ left_ih right_ih =>
    rw [List.append_assoc] at ran
    obtain ⟨between, left, -, ran⟩ := left_ih outside ran
    obtain ⟨_, _, step, ran⟩ := left.outside.run_cons ran (by decide)
    cases step
    obtain ⟨next, right, -, ran⟩ := right_ih (left.outside.forget _) ran
    refine ⟨next, ⟨right.outside, ?_, ?_⟩, by rintro ⟨⟩, ran⟩
    · rw [right.groups, left.groups, note_note, note_note]
      simp only [Regex.hasQuantified, Regex.hasAlternation, Bool.false_or, Bool.or_true, Bool.true_or]
    · rw [Regex.quantifiesGroup, left.direct, right.direct, Bool.or_false]
  | alternative _ ih =>
    obtain ⟨next, passed, -, ran⟩ := ih outside ran
    exact ⟨next, passed, by rintro ⟨⟩, ran⟩
  | empty => exact ⟨guard, ⟨outside, (note_false _).symm, rfl⟩, by rintro ⟨⟩, ran⟩
  | sequence _ _ left_ih right_ih =>
    rw [List.append_assoc] at ran
    obtain ⟨between, left, -, ran⟩ := left_ih outside ran
    obtain ⟨next, right, -, ran⟩ := right_ih left.outside ran
    refine ⟨next, ⟨right.outside, ?_, ?_⟩, by rintro ⟨⟩, ran⟩
    · rw [right.groups, left.groups, note_note, Regex.hasQuantified, Regex.hasAlternation]
    · rw [Regex.quantifiesGroup, left.direct, right.direct, Bool.or_false]
  | edge edge =>
    obtain ⟨next, skip, step, ran⟩ := outside.run_cons ran (by rintro rfl; simp at edge)
    have forgotten : (guard.forgetAtom, 0) = (next, skip) := by
      rcases edge with rfl | rfl <;> exact Option.some.inj step
    cases forgotten
    exact ⟨_, ⟨outside.forget _, (note_false _).symm, rfl⟩, by rintro ⟨⟩, ran⟩
  | boundary _ =>
    have passed := outside.passes_character
    exact ⟨_, ⟨passed.outside, passed.groups, rfl⟩, by rintro ⟨⟩, (run_escaped outside.escaped ran).2⟩
  | lookahead _ _ _ | noncapturing _ _ =>
    obtain ⟨_, _, step, -⟩ := outside.run_cons ran (by decide)
    cases step
  | atom _ ih =>
    obtain ⟨next, passed, -, ran⟩ := ih outside ran
    exact ⟨next, passed, by rintro ⟨⟩, ran⟩
  | quantified inner applied suffix ih =>
    rw [List.append_assoc, List.append_assoc] at ran
    obtain ⟨between, passed, remembers, ran⟩ := ih outside ran
    obtain ⟨closed, ran⟩ := passed.outside.run_quantifier (remembers rfl) applied ran
    refine ⟨_, ⟨passed.outside.forget (note true false between.groups), ?_, ?_⟩, by rintro ⟨⟩, ?_⟩
    · obtain ⟨unquantified, single⟩ := inner.atom_flags
      simp only [passed.groups, unquantified, single, note_false, Regex.hasQuantified, Regex.hasAlternation]
    · cases inner with
      | character _ | escape _ | class_ _ => rfl
      | @group body _ _ | @noncapturing body _ _ =>
        rw [Regex.quantifiesGroup, closed body rfl]
        exact passed.direct
    · rcases suffix with rfl | rfl
      · exact ran
      · obtain ⟨_, _, step, ran⟩ := (passed.outside.forget _).run_cons ran (by decide)
        cases step
        exact ran
  | character plain => exact ⟨_, outside.passes_character, fun _ => remembers_character, outside.run_plain plain ran⟩
  | escape escape =>
    exact ⟨_, outside.passes_character, fun _ => remembers_character, outside.run_escape escape ran⟩
  | class_ ranges => exact ⟨_, outside.passes_character, fun _ => remembers_character, outside.run_class ranges ran⟩
  | group _ ih =>
    obtain ⟨next, passed, remembers, ran⟩ := outside.run_group (fun outside ran => by
      obtain ⟨next, passed, -, ran⟩ := ih outside ran
      exact ⟨next, passed, ran⟩) ran
    exact ⟨next, passed, fun _ => remembers, ran⟩

/-- Without open contents, what is risky in a quantified group is inside of a group in it. -/
lemma quantifiesGroup_isRisky (direct : regex.quantifiesGroup isOpen = false) :
    regex.quantifiesGroup Regex.isRisky = regex.quantifiesGroup Regex.hasRiskyGroup := by
  induction regex with
  | empty | assertion | character => rfl
  | group body ih | lookahead body ih => exact ih direct
  | sequence left right left_ih right_ih | alternation left right left_ih right_ih =>
    obtain ⟨first, second⟩ := Bool.or_eq_false_iff.mp direct
    rw [Regex.quantifiesGroup, Regex.quantifiesGroup, left_ih first, right_ih second]
  | quantified atom ih =>
    cases atom with
    | group body =>
      obtain ⟨closed, direct⟩ := Bool.or_eq_false_iff.mp direct
      have same : body.quantifiesGroup Regex.isRisky = body.quantifiesGroup Regex.hasRiskyGroup := ih direct
      rw [Regex.quantifiesGroup, Regex.quantifiesGroup, same,
        Regex.isRisky_of_shallow (Bool.or_eq_false_iff.mp closed)]
    | _ =>
      exact ih direct

end RegexGuard
open RegexGuard

/-- Of the patterns that the guard accepts, those have no quantifier on a group with a quantifier or an
alternation in it that have none on a group with such a group in it. -/
theorem accepted_unnested_iff {regex : Regex} {patternText : List Char}
    (spells : Spells .disjunction regex patternText) (accepted : schemaRegexIsSafe patternText = true) :
    regex.quantifiesGroup Regex.isRisky = false ↔ regex.quantifiesGroup Regex.hasRiskyGroup = false := by
  rw [schemaRegexIsSafe] at accepted
  split at accepted
  · cases accepted
  · rename_i final ran
    rw [← List.append_nil patternText] at ran
    obtain ⟨next, passed, -⟩ := passes_spelled spells ⟨rfl, rfl⟩ ran
    rw [quantifiesGroup_isRisky passed.direct]

/-- A group that is quantified. -/
theorem accepted_unnested_iff_group :
    schemaRegexIsSafe ['(', 'a', ')', '+'] = true ∧
      (Regex.sequence .empty (.quantified (.group (.sequence .empty .character)))).quantifiesGroup
        Regex.isRisky = false := by
  have letter : Spells .term .character ['a'] := .atom (.character (by decide))
  have spells : Spells .term (.quantified (.group (.sequence .empty .character))) ['(', 'a', ')', '+'] :=
    .quantified (.group letter.alone) (.symbol (.inr (.inl rfl))) (.inl rfl)
  have accepted : schemaRegexIsSafe ['(', 'a', ')', '+'] = true := by decide
  exact ⟨accepted, (accepted_unnested_iff spells.alone accepted).mpr rfl⟩

/-- The guard accepts a pattern with a quantifier inside of a quantified group. -/
theorem nested_quantifier_accepted :
    ∃ regex, Spells .disjunction regex ['(', '(', 'a', '+', ')', ')', '*'] ∧
      schemaRegexIsSafe ['(', '(', 'a', '+', ')', ')', '*'] = true ∧
      regex.quantifiesGroup Regex.isRisky = true := by
  have letter : Spells .atom .character ['a'] := .character (by decide)
  have repeated : Spells .term (.quantified .character) ['a', '+'] :=
    .quantified letter (.symbol (.inr (.inl rfl))) (.inl rfl)
  have inner : Spells .term (.group (.sequence .empty (.quantified .character))) ['(', 'a', '+', ')'] :=
    .atom (.group repeated.alone)
  have outer : Spells .term (.quantified (.group (.sequence .empty (.group (.sequence .empty
      (.quantified .character)))))) ['(', '(', 'a', '+', ')', ')', '*'] :=
    .quantified (.group inner.alone) (.symbol (.inl rfl)) (.inl rfl)
  exact ⟨_, outer.alone, by decide, rfl⟩

end OmegaEdit.SchemaRegex
