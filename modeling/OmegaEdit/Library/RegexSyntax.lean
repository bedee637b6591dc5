import Mathlib.Data.List.Basic

/-! Patterns in the syntax of ECMAScript: what is an atom, what a quantifier is applied to and what
is inside of a group. Escapes and classes are read but not distinguished. -/
namespace RegexSyntax

inductive Regex where
  | empty
  | assertion
  | character
  | group (body : Regex)
  | lookahead (body : Regex)
  | quantified (atom : Regex)
  | sequence (left right : Regex)
  | alternation (left right : Regex)
deriving DecidableEq, Repr

/-- The levels of the grammar. -/
inductive Level where
  | disjunction
  | alternative
  | term
  | atom

def syntaxCharacters : List Char := ['^', '$', '\\', '*', '+', '?', '(', ')', '[', ']', '{', '}', '|']

def hexDigits : List Char := "0123456789abcdefABCDEF".toList

/-- What follows a backslash outside of a class. -/
inductive AtomEscape : List Char → Prop
  | decimal {digits : List Char} (some : digits ≠ []) (each : ∀ ch ∈ digits, ch.isDigit = true) :
      AtomEscape digits
  | letter {ch : Char} (named : ch ∈ "fnrtvdDsSwW".toList) : AtomEscape [ch]
  | identity {ch : Char} (other : ch.isAlphanum = false ∧ ch ≠ '_') : AtomEscape [ch]
  | control {ch : Char} (letter : ch.isAlpha = true) : AtomEscape ['c', ch]
  | code {ch : Char} {digits : List Char} (width : ch = 'x' ∧ digits.length = 2 ∨ ch = 'u' ∧ digits.length = 4)
      (each : ∀ ch ∈ digits, ch ∈ hexDigits) : AtomEscape (ch :: digits)

/-- What stands between the brackets of a class. -/
inductive ClassRanges : List Char → Prop
  | nil : ClassRanges []
  | plain {ch : Char} {rest : List Char} (inside : ch ≠ '\\' ∧ ch ≠ ']') (ranges : ClassRanges rest) :
      ClassRanges (ch :: rest)
  | escaped {ch : Char} {rest : List Char} (ranges : ClassRanges rest) : ClassRanges ('\\' :: ch :: rest)

inductive Quantifier : List Char → Prop
  | symbol {ch : Char} (symbol : ch = '*' ∨ ch = '+' ∨ ch = '?') : Quantifier [ch]
  | range {low bound : List Char} (some : low ≠ []) (digits : ∀ ch ∈ low, ch.isDigit = true)
      (upper : bound = [] ∨ ∃ high, bound = ',' :: high ∧ ∀ ch ∈ high, ch.isDigit = true) :
      Quantifier ('{' :: (low ++ bound ++ ['}']))

/-- The text spells the pattern. -/
inductive Spells : Level → Regex → List Char → Prop
  | alternation {left right : Regex} {first second : List Char} (l : Spells .alternative left first)
      (r : Spells .disjunction right second) :
      Spells .disjunction (.alternation left right) (first ++ '|' :: second)
  | alternative {regex : Regex} {text : List Char} (only : Spells .alternative regex text) :
      Spells .disjunction regex text
  | empty : Spells .alternative .empty []
  | sequence {left right : Regex} {first second : List Char} (l : Spells .alternative left first)
      (r : Spells .term right second) : Spells .alternative (.sequence left right) (first ++ second)
  | edge {ch : Char} (edge : ch = '^' ∨ ch = '$') : Spells .term .assertion [ch]
  | boundary {ch : Char} (boundary : ch = 'b' ∨ ch = 'B') : Spells .term .assertion ['\\', ch]
  | lookahead {body : Regex} {ch : Char} {text : List Char} (inner : Spells .disjunction body text)
      (kind : ch = '=' ∨ ch = '!') : Spells .term (.lookahead body) ('(' :: '?' :: ch :: (text ++ [')']))
  | atom {regex : Regex} {text : List Char} (only : Spells .atom regex text) : Spells .term regex text
  | quantified {regex : Regex} {text quantifier lazy : List Char} (inner : Spells .atom regex text)
      (applied : Quantifier quantifier) (suffix : lazy = [] ∨ lazy = ['?']) :
      Spells .term (.quantified regex) (text ++ (quantifier ++ lazy))
  | character {ch : Char} (plain : ch ∉ syntaxCharacters) : Spells .atom .character [ch]
  | escape {text : List Char} (escape : AtomEscape text) : Spells .atom .character ('\\' :: text)
  | class_ {text : List Char} (ranges : ClassRanges text) : Spells .atom .character ('[' :: (text ++ [']']))
  | group {body : Regex} {text : List Char} (inner : Spells .disjunction body text) :
      Spells .atom (.group body) ('(' :: (text ++ [')']))
  | noncapturing {body : Regex} {text : List Char} (inner : Spells .disjunction body text) :
      Spells .atom (.group body) ('(' :: '?' :: ':' :: (text ++ [')']))

namespace Regex

/-- A quantifier or an alternation stands in the pattern, at any depth. -/
def isRisky : Regex → Bool
  | quantified _ | alternation _ _ => true
  | sequence left right => left.isRisky || right.isRisky
  | group body | lookahead body => body.isRisky
  | empty | assertion | character => false

/-- A quantifier is applied to a group of whose content something holds. -/
def quantifiesGroup (content : Regex → Bool) : Regex → Bool
  | quantified (group body) => content body || body.quantifiesGroup content
  | quantified inner | group inner | lookahead inner => inner.quantifiesGroup content
  | sequence left right | alternation left right =>
    left.quantifiesGroup content || right.quantifiesGroup content
  | empty | assertion | character => false

/-- A quantifier stands in the pattern, outside of its groups. -/
def hasQuantified : Regex → Bool
  | quantified _ => true
  | sequence left right | alternation left right => left.hasQuantified || right.hasQuantified
  | _ => false

/-- An alternation stands in the pattern, outside of its groups. -/
def hasAlternation : Regex → Bool
  | alternation _ _ => true
  | sequence left right => left.hasAlternation || right.hasAlternation
  | _ => false

/-- There is a group in the pattern with a quantifier or an alternation in it, at any depth. -/
def hasRiskyGroup : Regex → Bool
  | group body | lookahead body => body.isRisky
  | quantified atom => atom.hasRiskyGroup
  | sequence left right | alternation left right => left.hasRiskyGroup || right.hasRiskyGroup
  | empty | assertion | character => false

/-- The risk of a pattern is in the open or inside of a group. -/
lemma isRisky_of_shallow {regex : Regex} (shallow : regex.hasQuantified = false ∧ regex.hasAlternation = false) :
    regex.isRisky = regex.hasRiskyGroup := by
  induction regex with
  | empty | assertion | character | group _ _ | lookahead _ _ => rfl
  | quantified _ _ => cases shallow.1
  | alternation _ _ _ _ => cases shallow.2
  | sequence left right left_ih right_ih =>
    simp only [hasQuantified, hasAlternation, Bool.or_eq_false_iff] at shallow
    rw [isRisky, hasRiskyGroup, left_ih ⟨shallow.1.1, shallow.2.1⟩, right_ih ⟨shallow.1.2, shallow.2.2⟩]

end Regex

lemma Spells.atom_flags {regex : Regex} {text : List Char} (spells : Spells .atom regex text) :
    regex.hasQuantified = false ∧ regex.hasAlternation = false := by
  cases spells with
  | _ => exact ⟨rfl, rfl⟩

lemma Spells.alone {regex : Regex} {text : List Char} (spells : Spells .term regex text) :
    Spells .disjunction (.sequence .empty regex) text := .alternative (.sequence .empty spells)

end RegexSyntax
