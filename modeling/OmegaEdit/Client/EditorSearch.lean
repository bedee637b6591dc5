import Mathlib.Data.List.Dedup
import Mathlib.Data.List.Sort
import OmegaEdit.Library.Occurrences
import OmegaEdit.Search

/-! The searches of an editor. What the server finds in a range is taken as it should be; the editor
asks for ranges around an anchor or a viewport, where a length of zero means up to the end. -/
namespace OmegaEdit.EditorSearch
open Occurrences

def maxSafeInteger : Int := 9007199254740991

/-- `Number.isSafeInteger` of a number that is not negative. -/
def usable (value : Option Int) : Option Nat :=
  value.bind fun number => if 0 ≤ number ∧ number ≤ maxSafeInteger then some number.toNat else none

/-- What is searched: a content, a pattern and how letters are compared. -/
structure Query where
  content : List Byte
  pattern : List Byte
  caseFolding : CaseFolding
  nonempty : 0 < pattern.length

def Query.Match (query : Query) (offset : Nat) : Prop :=
  Occurs (query.caseFolding.fold query.pattern) (query.caseFolding.fold query.content) offset

instance (query : Query) : DecidablePred query.Match :=
  fun _ => inferInstanceAs (Decidable (Occurs _ _ _))

/-- The matches from `offset` that end at `stop` or before. -/
def Query.matchesIn (query : Query) (offset stop : Nat) : List Nat :=
  (List.range' offset (stop - offset)).filter fun place =>
    place + query.pattern.length ≤ stop ∧ query.Match place

/-- Where a range ends: a length of zero goes up to the end. -/
def Query.rangeEnd (query : Query) (offset length : Nat) : Nat :=
  if length = 0 then query.content.length else offset + length

/-- What the server answers: the matches of a range in search order, up to a limit. -/
def Query.searchSession (query : Query) (isReverse : Bool) (offset length limit : Nat) : List Nat :=
  let found := query.matchesIn offset (query.rangeEnd offset length)
  let ordered := if isReverse then found.reverse else found
  if limit = 0 then ordered else ordered.take limit

def matchOverlapsRange (matchOffset patternLength rangeOffset rangeLength : Nat) : Bool :=
  decide (0 < patternLength ∧ 0 < rangeLength ∧ matchOffset < rangeOffset + rangeLength ∧
    rangeOffset < matchOffset + patternLength)

structure Viewport where
  offset : Option Int
  length : Option Int
  limit : Option Int

structure MatchWindow where
  offset : Nat
  length : Nat
  found : List Nat
  hasMore : Bool
deriving DecidableEq, Repr

def Query.searchOffset (query : Query) (visibleOffset : Nat) : Nat :=
  visibleOffset - (query.pattern.length - 1)

def Query.searchEnd (query : Query) (fileSize visibleOffset visibleLength : Nat) : Nat :=
  min fileSize (visibleOffset + visibleLength + (query.pattern.length - 1))

/-- The window of the part that is visible. -/
def Query.matchWindow (query : Query) (fileSize visibleOffset visibleLength boundedLimit : Nat)
    (focusedOffset : Int) : MatchWindow :=
  let searchOffset := query.searchOffset visibleOffset
  let searchEnd := query.searchEnd fileSize visibleOffset visibleLength
  let visible := fun place =>
    matchOverlapsRange place query.pattern.length visibleOffset visibleLength
  let visibleMatches := ((query.searchSession false searchOffset (searchEnd - searchOffset)
    (boundedLimit + 1)).filter visible).insertionSort (· ≤ ·)
  let listed := visibleMatches.take (boundedLimit + 1)
  if 0 ≤ focusedOffset ∧ visible focusedOffset.toNat = true ∧ focusedOffset.toNat ∉ listed then
    ⟨visibleOffset, visibleLength,
      (listed.take boundedLimit ++ [focusedOffset.toNat]).dedup.insertionSort (· ≤ ·), true⟩
  else ⟨visibleOffset, visibleLength, listed, decide (boundedLimit < visibleMatches.length)⟩

def Query.boundedLimit (query : Query) (viewport : Viewport) (visibleLength : Nat) : Nat :=
  let viewportSizedLimit := visibleLength + (query.pattern.length - 1) + 1
  max 1 (((usable viewport.limit).filter (0 < ·)).getD viewportSizedLimit)

def Query.collectViewportMatches (query : Query) (fileSize : Nat) (viewport : Viewport)
    (focusedOffset : Int) : Option MatchWindow :=
  match usable viewport.offset, usable viewport.length with
  | some viewportOffset, some viewportLength =>
    if query.pattern.length = 0 ∨ fileSize = 0 ∨ viewportLength = 0 ∨ fileSize ≤ viewportOffset then
      none
    else
      let visibleOffset := min viewportOffset fileSize
      let visibleLength := min viewportLength (fileSize - visibleOffset)
      if visibleLength = 0 then none
      else
        some (query.matchWindow fileSize visibleOffset visibleLength
          (query.boundedLimit viewport visibleLength) focusedOffset)
  | _, _ => none

section Ranges
variable {query : Query} {place offset stop : Nat} {numbers : List Nat} {P : Nat → Prop}

lemma Query.Match.inside (found : query.Match place) :
    place + query.pattern.length ≤ query.content.length := by
  have inside := Occurs.inside found
  simp only [CaseFolding.fold, List.length_map] at inside
  exact inside query.nonempty

lemma mem_matchesIn : place ∈ query.matchesIn offset stop ↔
    offset ≤ place ∧ place + query.pattern.length ≤ stop ∧ query.Match place := by
  have nonempty := query.nonempty
  rw [Query.matchesIn, List.mem_filter, List.mem_range'_1, decide_eq_true_eq]
  constructor
  · rintro ⟨⟨above, _⟩, found⟩
    exact ⟨above, found⟩
  · rintro ⟨above, ends, found⟩
    exact ⟨⟨above, by omega⟩, ends, found⟩

lemma sorted_matchesIn (query : Query) (offset stop : Nat) :
    (query.matchesIn offset stop).Pairwise (· < ·) :=
  List.Pairwise.filter _ List.pairwise_lt_range'

end Ranges

section Adjacent
variable {query : Query} {anchor place offset length : Nat} {found : Option Nat}

end Adjacent

section Window
variable {query : Query} {window : MatchWindow} {fileSize : Nat} {focusedOffset : Int}

/-- The match reaches into the visible range. -/
def Query.Visible (query : Query) (window : MatchWindow) (place : Nat) : Prop :=
  place < window.offset + window.length ∧ window.offset < place + query.pattern.length

instance (query : Query) (window : MatchWindow) : DecidablePred (query.Visible window) :=
  fun _ => inferInstanceAs (Decidable (_ ∧ _))

def Query.visibleMatches (query : Query) (window : MatchWindow) : List Nat :=
  (List.range query.content.length).filter fun place => query.Match place ∧ query.Visible window place

structure MatchWindow.Exact (query : Query) (boundedLimit : Nat) (focusedOffset : Int)
    (window : MatchWindow) : Prop where
  complete : window.hasMore = false → window.found.Pairwise (· < ·) ∧
    ∀ place, place ∈ window.found ↔ query.Match place ∧ query.Visible window place
  visible : ∀ place ∈ window.found, query.Visible window place
  focused : ∀ place : Nat, focusedOffset = place → query.Visible window place → place ∈ window.found
  more : window.hasMore = true ↔ boundedLimit < (query.visibleMatches window).length ∨
    ∃ place : Nat, focusedOffset = place ∧ query.Visible window place ∧ ¬ query.Match place

/-- The viewport shows a part of the file. -/
def Viewport.Shows (viewport : Viewport) (fileSize offset length : Nat) : Prop :=
  usable viewport.offset = some offset ∧ offset < fileSize ∧
    ∃ requested, usable viewport.length = some requested ∧ 0 < requested ∧
      length = min requested (fileSize - offset)

/-- The padded range holds the matches that reach into the visible one, and no others. -/
lemma mem_padded {offset length place : Nat} :
    place ∈ query.matchesIn (query.searchOffset offset)
        (query.searchEnd query.content.length offset length) ↔
      query.Match place ∧ place < offset + length ∧ offset < place + query.pattern.length := by
  have nonempty := query.nonempty
  rw [mem_matchesIn, Query.searchOffset, Query.searchEnd]
  constructor
  · rintro ⟨above, ends, found⟩
    exact ⟨found, by omega, by omega⟩
  · rintro ⟨found, before, behind⟩
    have inside := found.inside
    exact ⟨by omega, by omega, found⟩

/-- Nothing that was found is filtered out, and it is sorted already. -/
lemma visibleMatches_eq {offset length : Nat} (limit : Nat) (shown : 0 < length)
    (inside : offset + length ≤ query.content.length) :
    ((query.searchSession false (query.searchOffset offset)
        (query.searchEnd query.content.length offset length - query.searchOffset offset)
        (limit + 1)).filter fun place =>
          matchOverlapsRange place query.pattern.length offset length).insertionSort (· ≤ ·) =
      (query.matchesIn (query.searchOffset offset)
        (query.searchEnd query.content.length offset length)).take (limit + 1) := by
  have ends : query.rangeEnd (query.searchOffset offset)
      (query.searchEnd query.content.length offset length - query.searchOffset offset) =
      query.searchEnd query.content.length offset length := by
    rw [Query.rangeEnd, Query.searchEnd, Query.searchOffset]
    split <;> omega
  rw [Query.searchSession, ends]
  have sorted := sorted_matchesIn query (query.searchOffset offset)
    (query.searchEnd query.content.length offset length)
  refine Eq.trans (congrArg _ (List.filter_eq_self.mpr fun place taken => ?_))
    (List.Pairwise.insertionSort_eq (sorted.take.imp le_of_lt))
  have overlaps := (mem_padded.mp (List.mem_of_mem_take taken)).2
  exact decide_eq_true ⟨query.nonempty, shown, overlaps⟩

lemma matchesIn_eq_visibleMatches (window : MatchWindow) :
    query.matchesIn (query.searchOffset window.offset)
        (query.searchEnd query.content.length window.offset window.length) =
      query.visibleMatches window := by
  have ordered : (query.visibleMatches window).Pairwise (· < ·) :=
    List.Pairwise.filter _ List.pairwise_lt_range
  refine (sorted_matchesIn query _ _).eq_of_mem_iff ordered fun place => ?_
  have nonempty := query.nonempty
  rw [mem_padded, Query.visibleMatches, List.mem_filter, List.mem_range, decide_eq_true_eq]
  exact ⟨fun ⟨found, visible⟩ => ⟨by have := found.inside; omega, found, visible⟩, And.right⟩

lemma matchWindow_exact {offset length limit : Nat} (shown : 0 < length)
    (inside : offset + length ≤ query.content.length) (focusedOffset : Int) :
    MatchWindow.Exact query limit focusedOffset
      (query.matchWindow query.content.length offset length limit focusedOffset) := by
  rw [Query.matchWindow]
  simp only [visibleMatches_eq limit shown inside, List.take_take, Nat.min_self]
  generalize allEq : query.matchesIn (query.searchOffset offset)
    (query.searchEnd query.content.length offset length) = all
  have sorted : all.Pairwise (· < ·) := allEq ▸ sorted_matchesIn query _ _
  have mem (place : Nat) : place ∈ all ↔ query.Match place ∧ place < offset + length ∧
      offset < place + query.pattern.length := allEq ▸ mem_padded
  have same (window : MatchWindow) (starts : window.offset = offset) (wide : window.length = length) :
      query.visibleMatches window = all := by
    rw [← matchesIn_eq_visibleMatches, starts, wide, allEq]
  have overlaps (place : Nat) : matchOverlapsRange place query.pattern.length offset length = true ↔
      place < offset + length ∧ offset < place + query.pattern.length := by
    simp [matchOverlapsRange, query.nonempty, shown]
  split
  · rename_i added
    refine ⟨nofun, fun place listed => ?_, fun place focus _ => ?_, ?_⟩
    · rw [List.mem_insertionSort, List.mem_dedup, List.mem_append] at listed
      rcases listed with taken | focus
      · exact ((mem place).mp (List.mem_of_mem_take taken)).2
      · rw [List.mem_singleton.mp focus]
        exact (overlaps _).mp added.2.1
    · rw [List.mem_insertionSort, List.mem_dedup, focus]
      exact List.mem_append_right _ List.mem_cons_self
    · rw [same _ rfl rfl]
      refine iff_of_true rfl ((lt_or_ge limit all.length).imp_right fun short => ?_)
      have visible := (overlaps _).mp added.2.1
      refine ⟨focusedOffset.toNat, (Int.toNat_of_nonneg added.1).symm, visible, fun found => ?_⟩
      rw [List.take_of_length_le (by omega)] at added
      exact added.2.2 ((mem _).mpr ⟨found, visible⟩)
  · rename_i there
    have listed {place : Nat} (focus : focusedOffset = place) (visible : place < offset + length ∧
        offset < place + query.pattern.length) : place ∈ all.take (limit + 1) := by
      by_contra unlisted
      subst focus
      exact there ⟨Int.natCast_nonneg place, (overlaps place).mpr visible, unlisted⟩
    refine ⟨fun whole => ?_, fun place taken => ?_, fun place => listed, ?_⟩
    · have short : all.length ≤ limit := by
        have counted := of_decide_eq_false whole
        rw [List.length_take] at counted
        omega
      rw [List.take_of_length_le (by omega)]
      exact ⟨sorted, mem⟩
    · exact ((mem place).mp (List.mem_of_mem_take taken)).2
    · rw [same _ rfl rfl, decide_eq_true_eq, List.length_take]
      constructor
      · intro many
        exact .inl (by omega)
      · rintro (many | ⟨place, focus, visible, other⟩)
        · omega
        · exact (other ((mem place).mp (List.mem_of_mem_take (listed focus visible))).1).elim

/-- The matches of a viewport are all that reach into what it shows, unless it says that there are
more; a focused match is among them. It says so if they exceed the limit or the focus is no match. -/
theorem viewport_matches_exact (query : Query) (viewport : Viewport) {offset length : Nat}
    (shows : viewport.Shows query.content.length offset length) (focusedOffset : Int) :
    ∃ window, query.collectViewportMatches query.content.length viewport focusedOffset = some window ∧
      window.offset = offset ∧ window.length = length ∧
      window.Exact query (query.boundedLimit viewport length) focusedOffset := by
  obtain ⟨offsetEq, inside, requested, lengthEq, positive, rfl⟩ := shows
  have nonempty := query.nonempty
  rw [Query.collectViewportMatches, offsetEq, lengthEq]
  dsimp only
  rw [if_neg (by omega), Nat.min_eq_left (le_of_lt inside), if_neg (by omega)]
  refine ⟨_, rfl, ?_, ?_, matchWindow_exact (by omega) (by omega) focusedOffset⟩
  · rw [Query.matchWindow]
    split <;> rfl
  · rw [Query.matchWindow]
    split <;> rfl

/-- Two of the matches of "aa" in "aaaa" reach over the edges of the viewport. -/
theorem viewport_matches_exact_overlapping : ∃ query : Query, query.content = [97, 97, 97, 97] ∧
    query.pattern = [97, 97] ∧ ∃ window,
      query.collectViewportMatches 4 ⟨some 1, some 2, none⟩ (-1) = some window ∧
      window.hasMore = false ∧ window.found = [0, 1, 2] ∧ window.Exact query 4 (-1) := by
  refine ⟨⟨[97, 97, 97, 97], [97, 97], .none, by decide⟩, rfl, rfl, ?_⟩
  obtain ⟨window, collected, _, _, matches_⟩ := viewport_matches_exact
    ⟨[97, 97, 97, 97], [97, 97], .none, by decide⟩ ⟨some 1, some 2, none⟩
    ⟨rfl, by decide, 2, rfl, by decide, rfl⟩ (-1)
  obtain rfl : ⟨1, 2, [0, 1, 2], false⟩ = window :=
    Option.some.inj (Eq.trans (by decide +kernel) collected)
  exact ⟨_, collected, rfl, rfl, matches_⟩

end Window

end OmegaEdit.EditorSearch
