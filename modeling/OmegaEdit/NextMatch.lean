import OmegaEdit.SearchWindows

/-! One call of `nextMatch`. The contexts of one search differ in the match offset only. It stands
at the end of the range when the search has not begun. A forward search measures what is left of
the range from the last match and not from where it goes on, so that a window can reach past the
range by the advance. -/
namespace OmegaEdit
open Occurrences
namespace SearchContext

def moved (context : SearchContext) (offset : Nat) : SearchContext :=
  { context with matchOffset := offset }

lemma moved_moved (context : SearchContext) (offset other : Nat) :
    (context.moved offset).moved other = context.moved other := rfl

/-- The context and the result after a search that did not fail. -/
def settled (context : SearchContext) (high : Nat) : Option Nat → SearchContext × Int
  | some position => (context.moved position, 1)
  | none => (context.moved high, 0)

/-- A context over the range from `low` to `high` of the content. -/
structure Scope (context : SearchContext) (content : List Byte) (isReverseSearch : Bool)
    (low high : Nat) : Prop where
  ready : context.Ready isReverseSearch
  begins : context.sessionOffset = low
  ends : context.sessionOffset + context.sessionLength = high
  room : low + context.pattern.length ≤ high
  inside : high ≤ content.length

variable {context : SearchContext} {content : List Byte} {model : Model} {low high : Nat}
  {isReverseSearch : Bool}

lemma Scope.moved (scope : context.Scope content isReverseSearch low high) (offset : Nat) :
    (context.moved offset).Scope content isReverseSearch low high :=
  ⟨⟨scope.ready.nonempty, scope.ready.short, scope.ready.table⟩, scope.begins, scope.ends,
    scope.room, scope.inside⟩

/-- Where the range of a search ends: no length stands for all that follows. -/
def rangeEnd (size sessionOffset sessionLength : Int) : Int :=
  sessionOffset + (if sessionLength ≠ 0 then sessionLength else size - sessionOffset)

/-- An occurrence that lies between `low` and `high`. -/
def OccursIn (pattern text : List Byte) (low high : Int) (position : Nat) : Prop :=
  low ≤ position ∧ position + pattern.length ≤ high ∧ Occurs pattern text position

instance (pattern text : List Byte) (low high : Int) (position : Nat) :
    Decidable (OccursIn pattern text low high position) := inferInstanceAs (Decidable (_ ∧ _ ∧ _))

lemma hit_eq_occursIn : context.Hit content low high =
    OccursIn context.pattern (context.caseFolding.fold content) low high := by
  funext position
  refine propext (and_congr Int.ofNat_le.symm (and_congr ?_ Iff.rfl))
  omega

section Created
variable (denotes : model.HasContent content)

include denotes

lemma createContextBytes_scope {memory : Nat → Byte} {patternLength sessionOffset sessionLength : Int}
    {caseFolding : CaseFolding}
    (created : createContextBytes model (some memory) patternLength sessionOffset sessionLength
      caseFolding isReverseSearch = some context) :
    ∃ low high : Nat, context.Scope content isReverseSearch low high ∧
      context = context.moved high ∧ sessionOffset = low ∧
      rangeEnd content.length sessionOffset sessionLength = high ∧
      context.pattern = caseFolding.fold (readMemory memory patternLength) ∧
      context.caseFolding = caseFolding ∧ patternLength = context.pattern.length := by
  have size := computedFileSize_eq denotes
  unfold createContextBytes at created
  dsimp only at created
  rw [size] at created
  rw [rangeEnd]
  generalize (if sessionLength ≠ 0 then sessionLength else content.length - sessionOffset) =
    computed at created ⊢
  split at created
  · cases created
  · next positive =>
    split at created
    · cases created
    · next begins =>
      split at created
      · cases created
      · next sessionEnd sum =>
        have range := (safeAdd_eq_some_iff.mp sum).1
        split at created
        · cases created
        · next ordered =>
          split at created
          · next room =>
            cases created
            have length : (caseFolding.fold (readMemory memory patternLength)).length =
                patternLength.toNat := by
              rw [CaseFolding.length_fold, readMemory, List.length_map, List.length_range]
            refine ⟨sessionOffset.toNat, sessionEnd.toNat,
              ⟨⟨?_, ?_, rfl⟩, ?_, ?_, ?_, ?_⟩, ?_, ?_, ?_, rfl, rfl, ?_⟩
            · change 0 < (caseFolding.fold (readMemory memory patternLength)).length
              omega
            · change ((caseFolding.fold (readMemory memory patternLength)).length : Int) < _
              omega
            · change sessionOffset = _
              omega
            · change sessionOffset + computed = _
              omega
            · change _ + (caseFolding.fold (readMemory memory patternLength)).length ≤ _
              omega
            · omega
            · simp only [moved]
              congr 1
              omega
            · omega
            · omega
            · change _ = ((caseFolding.fold (readMemory memory patternLength)).length : Int)
              omega
          · cases created

end Created

section Call
variable (denotes : model.HasContent content)

include denotes

/-- A call reduces to its windows. -/
lemma nextMatch_eq (scope : context.Scope content isReverseSearch low high) {advance : Int}
    (nonneg : 0 ≤ advance) :
    context.nextMatch model advance =
      if context.patternLength ≤ context.searchLength (decide (context.matchOffset = high)) advance
      then
        match context.windowOffset high
          (min (context.searchLength (decide (context.matchOffset = high)) advance) maxSegmentLength)
          (decide (context.matchOffset = high)) advance with
        | none => .ok (context, -1)
        | some offset => do
          match ← context.searchWindows model
            (min (context.searchLength (decide (context.matchOffset = high)) advance)
              maxSegmentLength) (content.length + 2) offset with
          | none => .ok (context, -1)
          | some none => .ok (context.moved high, 0)
          | some (some matchOffset) => .ok ({ context with matchOffset }, 1)
      else .ok (context.moved high, 0) := by
  have small := denotes.length_le
  have inside := scope.inside
  have begins := scope.begins
  have ends := scope.ends
  have room := scope.room
  have last : safeAdd context.sessionOffset context.sessionLength = some (high : Int) := by
    rw [← ends]
    exact safeAdd_of_le (by omega) (by omega)
  have size := computedFileSize_eq denotes
  unfold nextMatch
  rw [if_neg (by omega), last]
  simp only [size, Int.toNat_natCast]
  rfl

lemma nextMatch_of_window (scope : context.Scope content isReverseSearch low high) {advance : Int}
    (nonneg : 0 ≤ advance) (rest : Int) {capacity offset : Int}
    (left : context.searchLength (decide (context.matchOffset = high)) advance = rest)
    (room : context.pattern.length ≤ rest) (least : min rest maxSegmentLength = capacity)
    (start : context.windowOffset high capacity (decide (context.matchOffset = high)) advance =
      some offset) (outcome : Option (Option Nat))
    (windows : context.searchWindows model capacity (content.length + 2) offset =
      .ok (outcome.map (Option.map Nat.cast))) :
    context.nextMatch model advance = .ok (outcome.elim (context, -1) (context.settled high)) := by
  rw [nextMatch_eq denotes scope nonneg, left, least, start,
    if_pos (show context.patternLength ≤ rest from room)]
  dsimp only
  rw [windows]
  match outcome with
  | none => rfl
  | some none => rfl
  | some (some position) => rfl

lemma nextMatch_exhausted (scope : context.Scope content isReverseSearch low high) {advance : Int}
    (nonneg : 0 ≤ advance)
    (short : context.searchLength (decide (context.matchOffset = high)) advance <
      context.pattern.length) :
    context.nextMatch model advance = .ok (context.settled high none) := by
  rw [nextMatch_eq denotes scope nonneg, if_neg (by rw [patternLength]; omega)]
  rfl

end Call

/-- Where a forward search goes on after its last match. -/
def searchFrom (low advance : Nat) : Option Nat → Nat
  | none => low
  | some last => last + advance

/-- Where the occurrences that a forward search can report end. -/
def searchTo (content : List Byte) (low high advance : Nat) : Option Nat → Nat
  | none => if (high - low : Int) < maxSegmentLength then high else content.length
  | some last => if (high - last : Int) < maxSegmentLength then high + advance else content.length

section Forward
variable (denotes : model.HasContent content) (scope : context.Scope content false low high)

include denotes scope

lemma searchWindows_forward {start rest : Nat} {capacity : Int} (inside : start ≤ content.length)
    (room : context.pattern.length ≤ rest) (least : min (rest : Int) maxSegmentLength = capacity) :
    ∃ found : Option Nat, context.searchWindows model capacity (content.length + 2) start =
        .ok (some (found.map Nat.cast)) ∧ Least (context.Hit content start
        (if (rest : Int) < maxSegmentLength then start + rest else content.length)) found := by
  by_cases near : (rest : Int) < maxSegmentLength
  · rw [if_pos near]
    have same : capacity = rest := by omega
    subst same
    exact searchWindows_forward_near denotes scope.ready inside room near (by omega)
  · rw [if_neg near]
    obtain ⟨largest, same⟩ : ∃ largest : Nat, capacity = largest := ⟨maxSegmentLength.toNat, by
      have limit : maxSegmentLength = 1048576 := rfl
      omega⟩
    subst same
    exact searchWindows_forward_far denotes scope.ready inside (by omega) (by omega)

lemma nextMatch_forward {last : Option Nat} {advance : Nat}
    (here : context.matchOffset = (last.getD high : Nat))
    (known : ∀ position ∈ last, position + context.pattern.length ≤ high)
    (within : searchFrom low advance last ≤ content.length) :
    ∃ found : Option Nat, context.nextMatch model advance = .ok (context.settled high found) ∧
      Least (context.Hit content (searchFrom low advance last)
        (searchTo content low high advance last)) found := by
  have small := denotes.length_le
  have nonempty := scope.ready.nonempty
  have begins := scope.begins
  have ends := scope.ends
  have room := scope.room
  have inside := scope.inside
  have forward := scope.ready.isReverse_eq
  cases last with
  | none =>
    change context.matchOffset = high at here
    obtain ⟨found, windows, least⟩ := searchWindows_forward denotes scope
      (by omega : low ≤ content.length) (by omega : context.pattern.length ≤ high - low) rfl
    refine ⟨found, ?_, ?_⟩
    · refine nextMatch_of_window denotes scope (Int.natCast_nonneg _) (high - low : Nat) ?_
        (by omega) rfl ?_ (some found) windows
      · simp only [searchLength, forward, here, decide_true, if_true, Bool.false_eq_true, if_false]
        omega
      · simp only [windowOffset, forward, here, decide_true, if_true, Bool.false_eq_true, if_false]
        rw [begins]
    · have limit : low + (high - low) = high := by omega
      rw [limit, Int.natCast_sub (by omega)] at least
      exact least
  | some position =>
    change context.matchOffset = position at here
    change position + advance ≤ content.length at within
    have close : position + context.pattern.length ≤ high := known position rfl
    have begun : decide (context.matchOffset = high) = false := decide_eq_false (by omega)
    obtain ⟨found, windows, least⟩ := searchWindows_forward denotes scope within
      (by omega : context.pattern.length ≤ high - position) rfl
    refine ⟨found, ?_, ?_⟩
    · refine nextMatch_of_window denotes scope (Int.natCast_nonneg _) (high - position : Nat) ?_
        (by omega) rfl ?_ (some found) windows
      · simp only [searchLength, forward, begun, Bool.false_eq_true, if_false]
        omega
      · simp only [windowOffset, forward, begun, Bool.false_eq_true, if_false]
        rw [here, safeAdd_of_le (by omega) (by omega), Int.natCast_add]
    · have limit : position + advance + (high - position) = high + advance := by omega
      rw [limit, Int.natCast_sub (by omega)] at least
      exact least

/-- A forward call that would go on after the end of the content fails. -/
lemma nextMatch_forward_past {last advance : Nat} (here : context.matchOffset = last)
    (close : last + context.pattern.length ≤ high) (past : content.length < last + advance) :
    context.nextMatch model advance = .ok (context, -1) := by
  have ends := scope.ends
  have nonempty := scope.ready.nonempty
  have inside := scope.inside
  have forward := scope.ready.isReverse_eq
  have begun : decide (context.matchOffset = high) = false := decide_eq_false (by omega)
  have left : context.searchLength (decide (context.matchOffset = high)) advance =
      (high - last : Nat) := by
    simp only [searchLength, forward, begun, Bool.false_eq_true, if_false]
    omega
  have start : ∀ capacity, context.windowOffset high capacity
      (decide (context.matchOffset = high)) advance = safeAdd last advance := by
    intro capacity
    simp only [windowOffset, forward, begun, Bool.false_eq_true, if_false]
    rw [here]
  cases sum : safeAdd (last : Int) advance with
  | none =>
    rw [nextMatch_eq denotes scope (Int.natCast_nonneg _), start, sum, left,
      if_pos (by rw [patternLength]; omega)]
  | some offset =>
    have value := (safeAdd_eq_some_iff.mp sum).1
    refine nextMatch_of_window denotes scope (Int.natCast_nonneg _) _ left (by omega) rfl
      ((start _).trans sum) none ?_
    rw [searchWindows, populateDataSegment_outside denotes (by omega) (.inr (by omega))]
    rfl

lemma nextMatch_forward_over {last advance : Nat} (here : context.matchOffset = last)
    (beyond : high < last + context.pattern.length) (other : last ≠ high) :
    context.nextMatch model advance = .ok (context.settled high none) := by
  have ends := scope.ends
  have begun : decide (context.matchOffset = high) = false := decide_eq_false (by omega)
  refine nextMatch_exhausted denotes scope (Int.natCast_nonneg _) ?_
  simp only [searchLength, scope.ready.isReverse_eq, begun, Bool.false_eq_true, if_false]
  omega

end Forward

section Reverse
variable (denotes : model.HasContent content) (scope : context.Scope content true low high)
  {top advance : Nat}

include denotes scope

section Placed
variable (here : if context.matchOffset = high then (top : Int) = high
  else context.matchOffset + 1 = top + advance)
include here

omit denotes in
lemma searchLength_reverse (room : low ≤ top) :
    context.searchLength (decide (context.matchOffset = high)) advance = (top - low : Nat) := by
  have begins := scope.begins
  have ends := scope.ends
  have reverse := scope.ready.isReverse_eq
  by_cases begin : context.matchOffset = high
  · rw [if_pos begin] at here
    simp only [searchLength, reverse, begin, decide_true, if_true]
    omega
  · rw [if_neg begin] at here
    simp only [searchLength, reverse, begin, decide_false, Bool.false_eq_true, if_true, if_false]
    omega

lemma windowOffset_reverse (bounded : context.matchOffset ≤ high) {capacity : Int}
    (nonneg : 0 ≤ capacity) (fits : capacity ≤ (top - low : Nat)) (room : low ≤ top) :
    context.windowOffset high capacity (decide (context.matchOffset = high)) advance =
      some (top - capacity) := by
  have small := denotes.length_le
  have inside := scope.inside
  have reverse := scope.ready.isReverse_eq
  by_cases begin : context.matchOffset = high
  · rw [if_pos begin] at here
    simp only [windowOffset, reverse, begin, decide_true, if_true, here]
  · rw [if_neg begin] at here
    have least : int64Min = -9223372036854775808 := rfl
    have rewind : safeAdd capacity advance = some (capacity + advance) :=
      safeAdd_eq_some_iff.mpr ⟨rfl, by omega, by omega⟩
    have moved : safeAdd context.matchOffset (-(capacity + advance)) =
        some (context.matchOffset + -(capacity + advance)) :=
      safeAdd_eq_some_iff.mpr ⟨rfl, by omega, by omega⟩
    have next : safeAdd (context.matchOffset + -(capacity + advance)) 1 =
        some (top - capacity) := safeAdd_eq_some_iff.mpr ⟨by omega, by omega, by omega⟩
    simp only [windowOffset, reverse, begin, decide_false, Bool.false_eq_true, if_true, if_false,
      rewind, moved, next, bind, Option.bind]

lemma nextMatch_reverse_near (bounded : context.matchOffset ≤ high)
    (room : low + context.pattern.length ≤ top) (within : top ≤ high)
    (near : (top - low : Int) < maxSegmentLength) :
    ∃ found : Option Nat, context.nextMatch model advance = .ok (context.settled high found) ∧
      Greatest (context.Hit content low top) found := by
  have inside := scope.inside
  obtain ⟨found, windows, greatest⟩ := searchWindows_reverse_near denotes scope.ready
    (by omega : low ≤ content.length) (by omega : context.pattern.length ≤ top - low) (by omega)
    (by omega : 0 < content.length + 2)
  have limit : low + (top - low) = top := by omega
  rw [limit] at greatest
  refine ⟨found, ?_, greatest⟩
  refine nextMatch_of_window denotes scope (Int.natCast_nonneg _) _
    (searchLength_reverse scope here (by omega)) (by omega) (by omega)
    ((windowOffset_reverse denotes scope here bounded (by omega) (by omega) (by omega)).trans ?_)
    (some found) windows
  congr 1
  omega

lemma nextMatch_reverse_far (bounded : context.matchOffset ≤ high)
    (room : low + context.pattern.length ≤ top) (within : top ≤ high)
    (far : maxSegmentLength ≤ (top - low : Int)) {found : Option Nat}
    (greatest : Greatest (context.Hit content 0 top) found) :
    context.nextMatch model advance = .ok (if ∃ position ∈ found, context.Reachable top position
        then context.settled high found else (context, -1)) := by
  have inside := scope.inside
  have limit : maxSegmentLength = 1048576 := rfl
  have windows := searchWindows_reverse_far denotes scope.ready (by omega : 0 < content.length)
    (by omega : top ≤ content.length) rfl (by omega : top < content.length + 2) greatest
  have call := nextMatch_of_window denotes scope (Int.natCast_nonneg _) _
    (searchLength_reverse scope here (by omega)) (by omega) (by omega)
    (windowOffset_reverse denotes scope here bounded (by omega) (by omega) (by omega))
    (if ∃ position ∈ found, context.Reachable top position then some found else none)
    (windows.trans ?_)
  · rw [call]
    split
    · rfl
    · rfl
  · split
    · rfl
    · rfl

end Placed

lemma nextMatch_reverse_over {top : Int} (here : if context.matchOffset = high then top = high
      else context.matchOffset + 1 = top + advance)
    (short : top < low + context.pattern.length) :
    context.nextMatch model advance = .ok (context.settled high none) := by
  have begins := scope.begins
  have nonempty := scope.ready.nonempty
  have room := scope.room
  have reverse := scope.ready.isReverse_eq
  refine nextMatch_exhausted denotes scope (Int.natCast_nonneg _) ?_
  by_cases begin : context.matchOffset = high
  · rw [if_pos begin] at here
    omega
  · rw [if_neg begin] at here
    simp only [searchLength, reverse, begin, decide_false, Bool.false_eq_true, if_true, if_false]
    omega

end Reverse

/-- Calls that report these matches one after the other. -/
inductive Reports (model : Model) (advance : Int) : SearchContext → List Nat → SearchContext → Prop
  | none {context : SearchContext} : Reports model advance context [] context
  | next {context final : SearchContext} {position : Nat} {rest : List Nat} :
      context.nextMatch model advance = .ok (context.moved position, 1) →
      Reports model advance (context.moved position) rest final →
      Reports model advance context (position :: rest) final

lemma Reports.append {advance : Int} {middle final : SearchContext} {positions later : List Nat}
    (reports : Reports model advance context positions middle)
    (more : Reports model advance middle later final) :
    Reports model advance context (positions ++ later) final := by
  induction reports with
  | none => exact more
  | next call _ ih => exact .next call (ih more)

section Loop
variable {advance : Int} {final : SearchContext} {positions : List Nat}

/-- The matches that were reported before the rest of a loop. -/
def reported (positions : List Nat) (outcome : Option (List Int × Int)) :
    Option (List Int × Int) :=
  outcome.map fun rest => (positions.map Nat.cast ++ rest.1, rest.2)

lemma matchLoop_next {position : Nat}
    (call : context.nextMatch model advance = .ok (context.moved position, 1)) (calls : Nat) :
    matchLoop model advance (calls + 1) context =
      (matchLoop model advance calls (context.moved position)).map (reported [position]) := by
  rw [matchLoop, call]
  change (matchLoop model advance calls (context.moved position) >>= _) = _
  cases matchLoop model advance calls (context.moved position) with
  | error => rfl
  | ok outcome =>
    cases outcome with
    | none | some => rfl

lemma matchLoop_end {other : SearchContext} {result : Int}
    (call : context.nextMatch model advance = .ok (other, result)) (ended : result ≤ 0)
    (calls : Nat) : matchLoop model advance (calls + 1) context = .ok (some ([], result)) := by
  rw [matchLoop, call]
  exact if_neg (Int.not_lt.mpr ended)

lemma Reports.matchLoop_eq (reports : Reports model advance context positions final) (calls : Nat) :
    matchLoop model advance (positions.length + calls) context =
      (matchLoop model advance calls final).map (reported positions) := by
  induction reports with
  | none =>
    rw [List.length_nil, Nat.zero_add]
    cases matchLoop model advance calls _ with
    | error => rfl
    | ok outcome =>
      cases outcome with
      | none | some => rfl
  | next call _ ih =>
    rw [List.length_cons, Nat.add_right_comm, matchLoop_next call, ih]
    cases matchLoop model advance calls _ with
    | error => rfl
    | ok outcome =>
      cases outcome with
      | none | some => rfl

lemma matchLoop_more {calls more : Nat} {outcome : List Int × Int} (le : calls ≤ more)
    (ended : matchLoop model advance calls context = .ok (some outcome)) :
    matchLoop model advance more context = .ok (some outcome) := by
  induction calls generalizing context more outcome with
  | zero => exact nomatch ended
  | succ calls ih =>
    obtain ⟨more, rfl⟩ := Nat.exists_eq_succ_of_ne_zero (by omega : more ≠ 0)
    obtain ⟨⟨next, result⟩, call, rest⟩ := Transition.bind_eq_ok.mp ended
    refine Transition.bind_eq_ok.mpr ⟨⟨next, result⟩, call, ?_⟩
    dsimp only at rest ⊢
    split at rest
    · next positive =>
      obtain ⟨later, loop, rest⟩ := Transition.bind_eq_ok.mp rest
      rw [if_pos positive]
      cases later with
      | none => exact nomatch rest
      | some later => exact Transition.bind_eq_ok.mpr ⟨some later, ih (by omega) loop, rest⟩
    · next ends => rwa [if_neg ends]

lemma matchLoop_unique {calls others : Nat} {outcome other : List Int × Int}
    (ended : matchLoop model advance calls context = .ok (some outcome))
    (again : matchLoop model advance others context = .ok (some other)) : outcome = other := by
  have first := matchLoop_more (Nat.le_max_left calls others) ended
  have second := matchLoop_more (Nat.le_max_right calls others) again
  cases first.symm.trans second
  rfl

/-- What a loop that has ended returns begins with the reported matches. -/
lemma Reports.of_ended (reports : Reports model advance context positions final) {calls : Nat}
    {outcome : List Int × Int}
    (ended : matchLoop model advance calls context = .ok (some outcome)) :
    ∃ later, matchLoop model advance calls final = .ok (some (later, outcome.2)) ∧
      outcome.1 = positions.map Nat.cast ++ later := by
  have more := matchLoop_more (Nat.le_add_left calls positions.length) ended
  rw [reports.matchLoop_eq] at more
  cases loop : matchLoop model advance calls final with
  | error =>
    rw [loop] at more
    exact nomatch more
  | ok later =>
    rw [loop] at more
    cases later with
    | none => exact nomatch more
    | some later =>
      cases more
      exact ⟨later.1, rfl, rfl⟩

end Loop

end SearchContext

end OmegaEdit
