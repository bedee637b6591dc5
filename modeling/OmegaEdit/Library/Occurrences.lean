import Mathlib.Data.Nat.Find
import OmegaEdit.Library.Splice

/-! Occurrences of a pattern in a list, and the search for the first or the last of them. A search
that looks at one element and moves on by more than one place must not pass over an occurrence;
a skip table that is safe in this sense depends on the pattern alone. -/
namespace Occurrences
open Splice
universe u
variable {α : Type u} {pattern text : List α} {position : Nat}

/-- The pattern stands in the text at the position. -/
def Occurs (pattern text : List α) (position : Nat) : Prop :=
  Splice.slice text position pattern.length = pattern

instance [DecidableEq α] : Decidable (Occurs pattern text position) :=
  inferInstanceAs (Decidable (_ = _))

lemma Occurs.inside (occurs : Occurs pattern text position) (nonempty : 0 < pattern.length) :
    position + pattern.length ≤ text.length := by
  have length := length_slice text position pattern.length
  rw [occurs] at length
  omega

lemma Occurs.getElem?_eq (occurs : Occurs pattern text position) {place : Nat}
    (inside : place < pattern.length) : text[position + place]? = pattern[place]? := by
  have same : (slice text position pattern.length)[place]? = pattern[place]? := by
    rw [occurs]
  rw [← same, slice, List.getElem?_take_of_lt inside, List.getElem?_drop]

lemma Occurs.mem (occurs : Occurs pattern text position) {element : α} (mem : element ∈ pattern) :
    element ∈ text := by
  rw [← occurs] at mem
  exact List.mem_of_mem_drop (List.mem_of_mem_take mem)

/-- The occurrences in a stretch are those that end inside of it. -/
lemma occurs_slice (nonempty : 0 < pattern.length) (start count : Nat) :
    Occurs pattern (slice text start count) position ↔
      position + pattern.length ≤ count ∧ Occurs pattern text (start + position) := by
  constructor
  · intro occurs
    have inside := occurs.inside nonempty
    rw [length_slice] at inside
    have short : position + pattern.length ≤ count := by omega
    rw [Occurs, slice_slice _ _ _ _ _ short] at occurs
    exact ⟨short, occurs⟩
  · rintro ⟨short, occurs⟩
    rw [Occurs, slice_slice _ _ _ _ _ short]
    exact occurs

/-- The least number with a property, if there is any. -/
def Least (P : Nat → Prop) : Option Nat → Prop
  | some found => P found ∧ ∀ other, P other → found ≤ other
  | none => ∀ other, ¬ P other

/-- The greatest number with a property, if there is any. -/
def Greatest (P : Nat → Prop) : Option Nat → Prop
  | some found => P found ∧ ∀ other, P other → other ≤ found
  | none => ∀ other, ¬ P other

section Extremes
variable {P Q : Nat → Prop} {found other : Option Nat}

lemma Least.congr (least : Least P found) (same : ∀ number, P number ↔ Q number) : Least Q found := by
  have equal : P = Q := funext fun number => propext (same number)
  exact equal ▸ least

lemma Greatest.congr (greatest : Greatest P found) (same : ∀ number, P number ↔ Q number) :
    Greatest Q found := by
  have equal : P = Q := funext fun number => propext (same number)
  exact equal ▸ greatest

lemma Least.unique (least : Least P found) (again : Least P other) : found = other := by
  cases found with
  | none =>
    cases other with
    | none => rfl
    | some second => exact absurd again.1 (least second)
  | some first =>
    cases other with
    | none => exact absurd least.1 (again first)
    | some second =>
      exact congrArg some (Nat.le_antisymm (least.2 second again.1) (again.2 first least.1))

lemma Greatest.unique (greatest : Greatest P found) (again : Greatest P other) : found = other := by
  cases found with
  | none =>
    cases other with
    | none => rfl
    | some second => exact absurd again.1 (greatest second)
  | some first =>
    cases other with
    | none => exact absurd greatest.1 (again first)
    | some second =>
      exact congrArg some (Nat.le_antisymm (again.2 first greatest.1) (greatest.2 second again.1))

lemma Least.mem {number : Nat} (least : Least P found) (known : number ∈ found) : P number := by
  cases known
  exact least.1

lemma Greatest.mem {number : Nat} (greatest : Greatest P found) (known : number ∈ found) :
    P number := by
  cases known
  exact greatest.1

lemma Least.shift {start : Nat} (least : Least (fun number => P (start + number)) found)
    (above : ∀ number, P number → start ≤ number) : Least P (found.map (start + ·)) := by
  cases found with
  | none =>
    intro number holds
    obtain ⟨distance, rfl⟩ := Nat.exists_eq_add_of_le (above number holds)
    exact least distance holds
  | some first =>
    refine ⟨least.1, fun number holds => ?_⟩
    obtain ⟨distance, rfl⟩ := Nat.exists_eq_add_of_le (above number holds)
    exact Nat.add_le_add_left (least.2 distance holds) start

lemma Greatest.shift {start : Nat} (greatest : Greatest (fun number => P (start + number)) found)
    (above : ∀ number, P number → start ≤ number) : Greatest P (found.map (start + ·)) := by
  cases found with
  | none =>
    intro number holds
    obtain ⟨distance, rfl⟩ := Nat.exists_eq_add_of_le (above number holds)
    exact greatest distance holds
  | some last =>
    refine ⟨greatest.1, fun number holds => ?_⟩
    obtain ⟨distance, rfl⟩ := Nat.exists_eq_add_of_le (above number holds)
    exact Nat.add_le_add_left (greatest.2 distance holds) start

lemma exists_least (P : Nat → Prop) : ∃ found, Least P found := by
  classical
  by_cases known : ∃ number, P number
  · exact ⟨some (Nat.find known), Nat.find_spec known, fun _ holds => Nat.find_min' known holds⟩
  · exact ⟨none, fun number holds => known ⟨number, holds⟩⟩

lemma exists_greatest {bound : Nat} (bounded : ∀ number, P number → number ≤ bound) :
    ∃ found, Greatest P found := by
  classical
  by_cases known : ∃ number, P number
  · obtain ⟨number, holds⟩ := known
    exact ⟨some (Nat.findGreatest P bound), Nat.findGreatest_spec (bounded number holds) holds,
      fun other also => Nat.le_findGreatest (bounded other also) also⟩
  · exact ⟨none, fun number holds => known ⟨number, holds⟩⟩

end Extremes

/-- The greedy choice upwards: the least number from `start`, then the least that is `advance`
further on, until there is none. -/
inductive Climbs (P : Nat → Prop) (advance : Nat) : Nat → List Nat → Prop
  | done {start : Nat} : Least (fun number => start ≤ number ∧ P number) none →
      Climbs P advance start []
  | next {start first : Nat} {rest : List Nat} :
      Least (fun number => start ≤ number ∧ P number) (some first) →
      Climbs P advance (first + advance) rest → Climbs P advance start (first :: rest)

/-- The greedy choice downwards: the greatest number that ends at or before `top`, then the
greatest that ends at or before that one, until there is none. -/
inductive Descends (P : Nat → Prop) (length : Nat) : Nat → List Nat → Prop
  | done {top : Nat} : Greatest (fun number => number + length ≤ top ∧ P number) none →
      Descends P length top []
  | next {top last : Nat} {rest : List Nat} :
      Greatest (fun number => number + length ≤ top ∧ P number) (some last) →
      Descends P length last rest → Descends P length top (last :: rest)

section Greedy
variable {P : Nat → Prop} {advance start top : Nat} {numbers others : List Nat}

lemma Climbs.unique (climbs : Climbs P advance start numbers) (again : Climbs P advance start others) :
    numbers = others := by
  induction climbs generalizing others with
  | done least =>
    cases again with
    | done => rfl
    | next other => exact nomatch least.unique other
  | next least _ ih =>
    cases again with
    | done other => exact nomatch least.unique other
    | next other rest =>
      cases least.unique other
      rw [ih rest]

lemma Climbs.mem (climbs : Climbs P advance start numbers) {number : Nat} (mem : number ∈ numbers) :
    start ≤ number ∧ P number := by
  induction climbs with
  | done => exact nomatch mem
  | next least _ ih =>
    cases mem with
    | head => exact least.1
    | tail _ later =>
      have rest := ih later
      exact ⟨le_trans least.1.1 (le_trans (Nat.le_add_right _ _) rest.1), rest.2⟩

lemma Descends.mem (descends : Descends P advance top numbers) {number : Nat}
    (mem : number ∈ numbers) : number + advance ≤ top ∧ P number := by
  induction descends with
  | done => exact nomatch mem
  | next greatest _ ih =>
    cases mem with
    | head => exact greatest.1
    | tail _ later =>
      have rest := ih later
      have first := greatest.1.1
      exact ⟨by omega, rest.2⟩

lemma Climbs.pairwise (climbs : Climbs P advance start numbers) :
    numbers.Pairwise fun earlier later => earlier + advance ≤ later := by
  induction climbs with
  | done => exact .nil
  | next _ rest ih => exact .cons (fun later mem => (rest.mem mem).1) ih

lemma Climbs.not_after (climbs : Climbs P advance start numbers) {number : Nat}
    (after : numbers.getLast?.elim start (· + advance) ≤ number) : ¬ P number := by
  induction climbs with
  | done least => exact fun holds => least number ⟨after, holds⟩
  | @next start first rest _ _ ih =>
    refine ih ?_
    rw [List.getLast?_cons] at after
    cases last : rest.getLast? with
    | none =>
      rw [last] at after
      exact after
    | some last =>
      rw [‹rest.getLast? = _›] at after
      exact after

/-- Every number but the first is at least one advance further on. -/
lemma Climbs.length_mul (climbs : Climbs P advance start numbers) {last : Nat}
    (ends : numbers.getLast? = some last) : start + (numbers.length - 1) * advance ≤ last := by
  induction climbs with
  | done => exact nomatch ends
  | @next start first rest least _ ih =>
    have begins := least.1.1
    rw [List.getLast?_cons] at ends
    cases rest with
    | nil =>
      cases ends
      rwa [List.length_singleton, Nat.sub_self, Nat.zero_mul, Nat.add_zero]
    | cons second rest =>
      obtain ⟨later, same⟩ : ∃ later, (second :: rest).getLast? = some later :=
        ⟨_, List.getLast?_eq_some_getLast (by simp)⟩
      rw [same] at ends
      cases ends
      have steps := ih same
      rw [List.length_cons, Nat.add_sub_cancel] at steps
      rw [List.length_cons, List.length_cons, Nat.add_sub_cancel, Nat.add_mul, Nat.one_mul]
      omega

/-- With an advance of one nothing is left out. -/
lemma Climbs.mem_iff (climbs : Climbs P 1 start numbers) (number : Nat) :
    number ∈ numbers ↔ start ≤ number ∧ P number := by
  refine ⟨climbs.mem, fun holds => ?_⟩
  induction climbs with
  | done least => exact absurd holds (least number)
  | next least _ ih =>
    have first := least.2 number holds
    rcases Nat.eq_or_lt_of_le first with same | later
    · rw [same]
      exact List.mem_cons_self
    · exact List.mem_cons_of_mem _ (ih ⟨later, holds.2⟩)

lemma exists_climbs {bound : Nat} (forward : 0 < advance)
    (bounded : ∀ number, P number → number < bound) (start : Nat) :
    ∃ numbers, Climbs P advance start numbers := by
  induction distance : bound - start using Nat.strongRecOn generalizing start with
  | _ distance ih =>
    obtain ⟨_ | first, least⟩ := exists_least fun number => start ≤ number ∧ P number
    · exact ⟨[], .done least⟩
    · have below := bounded first least.1.2
      have above := least.1.1
      obtain ⟨rest, climbs⟩ := ih (bound - (first + advance)) (by omega) (first + advance) rfl
      exact ⟨first :: rest, .next least climbs⟩

lemma exists_descends (backward : 0 < advance) (top : Nat) :
    ∃ numbers, Descends P advance top numbers := by
  induction top using Nat.strongRecOn with
  | _ top ih =>
    obtain ⟨_ | last, greatest⟩ := exists_greatest (P := fun number => number + advance ≤ top ∧ P number)
      fun number holds => Nat.le_of_add_right_le holds.1
    · exact ⟨[], .done greatest⟩
    · have ends := greatest.1.1
      obtain ⟨rest, descends⟩ := ih last (by omega)
      exact ⟨last :: rest, .next greatest descends⟩

end Greedy

/-- Moving on after a look at the element under the last place of the pattern: no shorter move can
bring an equal element there. -/
structure SkipsForward (pattern : List α) (skip : α → Nat) : Prop where
  pos : ∀ element, 0 < skip element
  le : ∀ element, skip element ≤ pattern.length
  safe : ∀ element distance, 0 < distance → distance < skip element →
    pattern[pattern.length - 1 - distance]? ≠ some element

/-- The mirror image, with a look at the element under the first place. -/
structure SkipsBackward (pattern : List α) (skip : α → Nat) : Prop where
  pos : ∀ element, 0 < skip element
  le : ∀ element, skip element ≤ pattern.length
  safe : ∀ element distance, 0 < distance → distance < skip element →
    pattern[distance]? ≠ some element

lemma SkipsForward.not_occurs {skip : α → Nat} (skips : SkipsForward pattern skip) {element : α}
    {distance : Nat} (seen : text[position + (pattern.length - 1)]? = some element)
    (moved : 0 < distance) (short : distance < skip element) :
    ¬ Occurs pattern text (position + distance) := by
  intro occurs
  have le := skips.le element
  have place := occurs.getElem?_eq (by omega : pattern.length - 1 - distance < pattern.length)
  have here : position + distance + (pattern.length - 1 - distance) =
      position + (pattern.length - 1) := by omega
  rw [here, seen] at place
  exact skips.safe element distance moved short place.symm

lemma SkipsBackward.not_occurs {skip : α → Nat} (skips : SkipsBackward pattern skip) {element : α}
    {distance : Nat} (seen : text[position + distance]? = some element) (moved : 0 < distance)
    (short : distance < skip element) : ¬ Occurs pattern text position := by
  intro occurs
  have le := skips.le element
  have place := occurs.getElem?_eq (by omega : distance < pattern.length)
  rw [seen] at place
  exact skips.safe element distance moved short place.symm

end Occurrences
