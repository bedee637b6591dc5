import OmegaEdit.MatchLoops
import OmegaEdit.ReverseSearch

/-! How many calls a loop over the matches takes. The matches of a forward search go up and those
of a reverse search go down, so that the distance to the end of the range bounds the calls. But a
match offset at the end of the range means that the search has not begun: a forward search that
reports a match there starts over and does not end. -/
namespace OmegaEdit
open Occurrences
namespace SearchContext
variable {context : SearchContext} {content : List Byte} {model : Model} {low high : Nat}

/-- After its matches inside of the range the search reports one at the end of the range. -/
def Stalls (context : SearchContext) (content : List Byte) (low high advance : Nat) : Prop :=
  ∃ matched, Climbs (context.Hit content low high) advance low matched ∧
    Least (context.Hit content (searchFrom low advance matched.getLast?)
      (searchTo content low high advance matched.getLast?)) (some high)

/-- The range is one byte that matches, and so does the byte that is the advance further on. -/
def Overlong (context : SearchContext) (content : List Byte) (low high advance : Nat) : Prop :=
  high = low + 1 ∧ 2 ≤ advance ∧ context.Hit content low high low ∧
    Occurs context.pattern (context.text content) (low + advance)

section Forward
variable (denotes : model.HasContent content) (scope : context.Scope content false low high)
  {advance : Nat} {matched : List Nat}

include denotes scope

/-- The calls of a forward search that stalls lead back to its beginning. -/
lemma reports_of_stalls (stalls : context.Stalls content low high advance) :
    ∃ matched, Reports model advance (context.moved high) (matched ++ [high]) (context.moved high) ∧
      ∀ position ∈ matched ++ [high], position + context.pattern.length ≤ content.length := by
  obtain ⟨matched, climbs, least⟩ := stalls
  have nonempty := scope.ready.nonempty
  have inside := scope.inside
  obtain ⟨reports, found, call, also, _⟩ := forward_course denotes scope climbs
    (le_trans least.1.1 inside)
  cases also.unique least
  refine ⟨matched, reports.append (.next call .none), fun position mem => ?_⟩
  rcases List.mem_append.mp mem with earlier | last
  · exact le_trans (climbs.mem earlier).2.2.1 inside
  · cases List.mem_singleton.mp last
    exact least.1.inside nonempty

lemma not_ended_of_stalls (stalls : context.Stalls content low high advance) (calls : Nat)
    (outcome : List Int × Int) :
    matchLoop model advance calls (context.moved high) ≠ .ok (some outcome) := by
  intro ended
  obtain ⟨matched, reports, _⟩ := reports_of_stalls denotes scope stalls
  obtain ⟨later, again, same⟩ := reports.of_ended ended
  have equal := matchLoop_unique ended again
  have lengths := congrArg List.length same
  rw [equal, List.length_append, List.length_map, List.length_append] at lengths
  change later.length = matched.length + 1 + later.length at lengths
  omega

omit denotes in
/-- A range has room for more matches than are reported before the search leaves it. -/
lemma length_lt_of_leaves (positive : 0 < advance)
    (climbs : Climbs (context.Hit content low high) advance low matched) {position : Nat}
    (hit : context.Hit content (searchFrom low advance matched.getLast?)
      (searchTo content low high advance matched.getLast?) position)
    (other : position ≠ high) (regular : ¬ context.Overlong content low high advance) :
    matched.length < high - low := by
  have nonempty := scope.ready.nonempty
  have room := scope.room
  by_contra full
  cases last : matched.getLast? with
  | none =>
    rw [List.getLast?_eq_none_iff.mp last, List.length_nil] at full
    omega
  | some final =>
    rw [last] at hit
    have known := (climbs.mem (List.mem_of_getLast? last)).2
    have steps := climbs.length_mul last
    have most : matched.length - 1 ≤ (matched.length - 1) * advance :=
      Nat.le_mul_of_pos_right _ positive
    -- the matches fill the range, so the last of them is its last byte
    have limit : maxSegmentLength = 1048576 := rfl
    have reached := hit.2.1
    rw [searchTo, if_pos (by omega)] at reached
    have begins : final + advance ≤ position := hit.1
    have two : 2 ≤ advance := by omega
    have double : (matched.length - 1) * 2 ≤ (matched.length - 1) * advance :=
      Nat.mul_le_mul_left _ two
    have first : final = low := by omega
    have place : position = low + advance := by omega
    exact regular ⟨by omega, two, first ▸ known, place ▸ hit.2.2⟩

omit denotes in
lemma length_le_of_climbs (positive : 0 < advance)
    (climbs : Climbs (context.Hit content low high) advance low matched) :
    matched.length ≤ high - low := by
  have nonempty := scope.ready.nonempty
  cases last : matched.getLast? with
  | none =>
    rw [List.getLast?_eq_none_iff.mp last]
    exact Nat.zero_le _
  | some final =>
    have ends := (climbs.mem (List.mem_of_getLast? last)).2.2.1
    have steps := climbs.length_mul last
    have most : matched.length - 1 ≤ (matched.length - 1) * advance :=
      Nat.le_mul_of_pos_right _ positive
    omega

lemma ended_of_not_stalls (positive : 0 < advance)
    (goes : ¬ context.Stalls content low high advance)
    (regular : ¬ context.Overlong content low high advance) :
    ∃ outcome, matchLoop model advance (high - low + 1) (context.moved high) =
      .ok (some outcome) := by
  obtain ⟨matched, climbs⟩ := exists_climbs (P := context.Hit content low high) positive
    (fun position hit => (by have := hit.2.1; have := scope.ready.nonempty; omega : position < high))
    low
  have few := length_le_of_climbs scope positive climbs
  have reports := forward_reports denotes scope none nofun climbs
  rw [Option.or_none] at reports
  change Reports model advance (context.moved high) matched _ at reports
  -- a call that reports nothing more
  have ends : ∀ other result, (context.moved (matched.getLast?.getD high)).nextMatch model advance =
      .ok (other, result) → result ≤ 0 → ∃ outcome,
        matchLoop model advance (high - low + 1) (context.moved high) = .ok (some outcome) := by
    intro other result call nonpositive
    have loop := reports.matchLoop_eq 1
    rw [matchLoop_end call nonpositive] at loop
    exact ⟨_, matchLoop_more (by omega) loop⟩
  by_cases within : searchFrom low advance matched.getLast? ≤ content.length
  · obtain ⟨_, found, call, least, outside⟩ := forward_course denotes scope climbs within
    cases found with
    | none => exact ends _ _ call (Int.le_refl 0)
    | some position =>
      have other : position ≠ high := fun same => goes ⟨matched, climbs, same ▸ least⟩
      have fewer := length_lt_of_leaves scope positive climbs least.1 other regular
      have past : (context.moved position).nextMatch model advance = _ :=
        nextMatch_forward_over denotes (scope.moved position) rfl (outside position rfl) other
      have loop := (reports.append (.next call .none)).matchLoop_eq 1
      rw [moved_moved, matchLoop_end past (Int.le_refl 0), List.length_append] at loop
      exact ⟨_, matchLoop_more (Nat.succ_le_succ fewer) loop⟩
  · have room := scope.room
    have inside := scope.inside
    cases last : matched.getLast? with
    | none =>
      rw [last, searchFrom] at within
      omega
    | some final =>
      rw [last] at within
      have close := (climbs.mem (List.mem_of_getLast? last)).2.2.1
      refine ends (context.moved final) (-1) ?_ (by decide)
      rw [last]
      exact nextMatch_forward_past denotes (scope.moved final) rfl close (not_le.mp within)

lemma not_ended_of_overlong (long : context.Overlong content low high advance)
    (outcome : List Int × Int) :
    matchLoop model advance (high - low + 1) (context.moved high) ≠ .ok (some outcome) := by
  obtain ⟨rfl, two, hit, again⟩ := long
  have nonempty := scope.ready.nonempty
  have climbs : Climbs (context.Hit content low (low + 1)) advance low [low] :=
    .next ⟨⟨le_refl low, hit⟩, fun _ known => known.1⟩
      (.done fun _ known => by have ends := known.2.2.1; omega)
  have inside := again.inside nonempty
  rw [text, CaseFolding.length_fold] at inside
  obtain ⟨reports, found, call, least, _⟩ := forward_course denotes scope climbs
    (by change low + advance ≤ content.length; omega)
  have limit : maxSegmentLength = 1048576 := rfl
  have close := hit.2.1
  have next : Least (context.Hit content (low + advance)
      (searchTo content low (low + 1) advance (some low))) (some (low + advance)) := by
    rw [searchTo, if_pos (by omega)]
    exact ⟨⟨le_rfl, by omega, again⟩, fun _ known => known.1⟩
  cases least.unique next
  have loop := (reports.append (.next call .none)).matchLoop_eq 0
  intro ended
  rw [show low + 1 - low + 1 = 2 by omega] at ended
  cases loop.symm.trans ended

end Forward

/-- A reverse search takes no more calls than what is left of the range has bytes, and one. -/
lemma reverse_ended (denotes : model.HasContent content)
    (scope : context.Scope content true low high) {advance : Nat} (positive : 0 < advance)
    {here : Nat} {top : Int} (bounded : here ≤ high)
    (below : if (here : Int) = high then top = high else (here : Int) + 1 = top + advance) :
    ∃ outcome, matchLoop model advance ((top - low).toNat + 1) (context.moved here) =
      .ok (some outcome) := by
  have nonempty := scope.ready.nonempty
  induction rest : (top - low).toNat using Nat.strongRecOn generalizing here top with
  | _ left ih =>
    have within : top ≤ high := by
      split at below
      · exact Int.le_of_eq below
      · omega
    -- a match leads to a smaller rest
    have goesOn : ∀ position : Nat, position + context.pattern.length ≤ top → 0 < left →
        (context.moved here).nextMatch model advance = .ok (context.moved position, 1) →
        ∃ outcome, matchLoop model advance (left + 1) (context.moved here) = .ok (some outcome) := by
      intro position lower some call
      obtain ⟨outcome, loop⟩ := @ih ((position + 1 - advance : Int) - low).toNat (by omega) position
        (position + 1 - advance) (by omega) (by rw [if_neg (by omega)]; omega) rfl
      have more := matchLoop_more (by omega : _ ≤ left) loop
      rw [matchLoop_next call, moved_moved, more]
      exact ⟨_, rfl⟩
    by_cases short : top < low + context.pattern.length
    · exact ⟨_, matchLoop_end (nextMatch_reverse_over denotes (scope.moved here) below short)
        (Int.le_refl 0) left⟩
    obtain ⟨top, rfl⟩ := Int.eq_ofNat_of_zero_le (by omega : 0 ≤ top)
    have room : low + context.pattern.length ≤ top := by omega
    by_cases near : (top - low : Int) < maxSegmentLength
    · obtain ⟨found, call, greatest⟩ := nextMatch_reverse_near denotes (scope.moved here) below
        (Int.ofNat_le.mpr bounded) room (by omega) near
      cases found with
      | none => exact ⟨_, matchLoop_end call (Int.le_refl 0) left⟩
      | some position => exact goesOn position (Int.ofNat_le.mpr greatest.1.2.1) (by omega) call
    · obtain ⟨found, greatest⟩ := exists_greatest (P := context.Hit content 0 top)
        (fun position hit => (by have := hit.2.1; omega : position ≤ top))
      have call := nextMatch_reverse_far denotes (scope.moved here) below
        (Int.ofNat_le.mpr bounded) room (by omega) (by omega) greatest
      split at call
      · next reachable =>
        obtain ⟨position, same, _⟩ := reachable
        cases same
        exact goesOn position (Int.ofNat_le.mpr greatest.1.2.1) (by omega) call
      · exact ⟨_, matchLoop_end call (by decide) left⟩

end SearchContext

/-- Fewer matches were counted than there are bytes up to the last of them. -/
def MatchCount.Fits (counted : MatchCount) (size patternLength : Int) : Prop :=
  match counted.lastAccepted with
  | none => counted.matchCount = 0
  | some last => 0 ≤ last ∧ last + patternLength ≤ size ∧ 0 ≤ counted.matchCount ∧
      counted.matchCount ≤ last + 1

section Counting
variable {size patternLength : Int} (small : size ≤ int64Max) (positive : 0 < patternLength)

include small positive

lemma countMatch_fits {counted : MatchCount} (fits : counted.Fits size patternLength)
    {position : Nat} (inside : position + patternLength ≤ size) :
    ∃ after, countMatch false patternLength counted position = .ok (some after) ∧
      after.Fits size patternLength := by
  obtain ⟨matchCount, lastAccepted⟩ := counted
  cases lastAccepted with
  | none =>
    cases (fits : matchCount = 0)
    refine ⟨⟨1, some position⟩, rfl, ?_⟩
    change (0 : Int) ≤ position ∧ position + patternLength ≤ size ∧ (0 : Int) ≤ 1 ∧
      (1 : Int) ≤ position + 1
    omega
  | some last =>
    change 0 ≤ last ∧ last + patternLength ≤ size ∧ 0 ≤ matchCount ∧ matchCount ≤ last + 1 at fits
    obtain ⟨nonneg, ends, counts, bound⟩ := fits
    have matchEnd : safeAdd position patternLength = some (position + patternLength) :=
      safeAdd_of_le (by omega) (by omega)
    have lastEnd : safeAdd last patternLength = some (last + patternLength) :=
      safeAdd_of_le (by omega) (by omega)
    by_cases overlaps : (position : Int) < last + patternLength
    · refine ⟨⟨matchCount, some last⟩, ?_, nonneg, ends, counts, bound⟩
      simp [countMatch, matchOverlapsPrior, matchEnd, lastEnd, overlaps]
    · have more : safeAdd matchCount 1 = some (matchCount + 1) :=
        safeAdd_of_le (by omega) (by omega)
      refine ⟨⟨matchCount + 1, some position⟩, ?_, ?_⟩
      · simp [countMatch, matchOverlapsPrior, matchEnd, lastEnd, overlaps, more]
      · change (0 : Int) ≤ position ∧ position + patternLength ≤ size ∧ 0 ≤ matchCount + 1 ∧
          matchCount + 1 ≤ position + 1
        omega

lemma countMatch_folds {positions : List Nat}
    (inside : ∀ position ∈ positions, position + patternLength ≤ size) {counted : MatchCount}
    (fits : counted.Fits size patternLength) :
    ∃ after, Folds (fun _ => true) (countMatch false patternLength) counted positions after ∧
      after.Fits size patternLength := by
  induction positions generalizing counted with
  | nil => exact ⟨counted, .none, fits⟩
  | cons first rest ih =>
    obtain ⟨next, done, kept⟩ := countMatch_fits small positive fits (inside first (by simp))
    obtain ⟨after, folds, last⟩ := ih (fun position mem => inside position (by simp [mem])) kept
    exact ⟨after, .next rfl done folds, last⟩

end Counting

lemma countMatch_sound (isReverse : Bool) (patternLength : Int) (counted : MatchCount)
    (matchOffset : Int) : ∃ next, countMatch isReverse patternLength counted matchOffset = .ok next := by
  unfold countMatch
  split
  · exact ⟨_, rfl⟩
  · exact ⟨_, rfl⟩
  · split
    · exact ⟨_, rfl⟩
    · exact ⟨_, rfl⟩

lemma collectMatch_sound (isReverse : Bool) (patternLength : Int) (matchOffsets : List Int)
    (matchOffset : Int) :
    ∃ next, collectMatch isReverse patternLength matchOffsets matchOffset = .ok next := by
  unfold collectMatch
  split
  · exact ⟨_, rfl⟩
  · exact ⟨_, rfl⟩
  · exact ⟨_, rfl⟩

namespace SearchContext
variable {context : SearchContext} {content : List Byte} {model : Model}

lemma countNonOverlappingMatches_ended {memory : Nat → Byte} {patternLength offset length : Int}
    {caseFolding : CaseFolding} {isReverse : Bool}
    (created : createContextBytes model (some memory) patternLength offset length caseFolding
      isReverse = some context) (calls : Nat) :
    (∃ outcome, countNonOverlappingMatches model (some memory) patternLength offset length
      caseFolding isReverse calls = .ok (some outcome)) ↔
    ∃ outcome, searchLoop model (fun _ => true) (countMatch isReverse patternLength) calls context
      { matchCount := 0, lastAccepted := none } 0 = .ok (some outcome) := by
  rw [countNonOverlappingMatches, created]
  dsimp only
  cases searchLoop model (fun _ => true) (countMatch isReverse patternLength) calls context
      { matchCount := 0, lastAccepted := none } 0 with
  | error =>
    constructor
    · rintro ⟨_, ended⟩
      exact nomatch ended
    · rintro ⟨_, ended⟩
      exact nomatch ended
  | ok outcome =>
    match outcome with
    | none =>
      constructor
      · rintro ⟨_, ended⟩
        exact nomatch ended
      · rintro ⟨_, ended⟩
        exact nomatch ended
    | some none | some (some _) => exact ⟨fun _ => ⟨_, rfl⟩, fun _ => ⟨_, rfl⟩⟩

theorem match_iteration_ends (denotes : model.HasContent content) {memory : Nat → Byte}
    {patternLength offset length : Int} {caseFolding : CaseFolding} {isReverse : Bool}
    (created : createContextBytes model (some memory) patternLength offset length caseFolding
      isReverse = some context) {advance : Int} (positive : 1 ≤ advance) :
    ((∃ outcome, matchLoop model advance
        ((rangeEnd content.length offset length - offset).toNat + 1) context = .ok (some outcome)) ∧
      (∀ limit, ∃ calls outcome,
        collectMatches model isReverse patternLength limit calls context = .ok (some outcome)) ∧
      ∃ calls outcome, countNonOverlappingMatches model (some memory) patternLength offset length
        caseFolding isReverse calls = .ok (some outcome)) ↔ (isReverse = true ∨
      ¬ context.Stalls content offset.toNat (rangeEnd content.length offset length).toNat
        advance.toNat ∧
      ¬ context.Overlong content offset.toNat (rangeEnd content.length offset length).toNat
        advance.toNat ∧
      ¬ context.Stalls content offset.toNat (rangeEnd content.length offset length).toNat 1) := by
  obtain ⟨low, high, scope, begin, offsetEq, endEq, patternEq, foldingEq, width⟩ :=
    createContextBytes_scope denotes created
  subst offsetEq
  have small := denotes.length_le
  have nonempty := scope.ready.nonempty
  obtain ⟨advance, rfl⟩ := Int.eq_ofNat_of_zero_le (by omega : 0 ≤ advance)
  have distance : ((high : Int) - low).toNat = high - low := by omega
  rw [endEq, Int.toNat_natCast, Int.toNat_natCast, Int.toNat_natCast, distance]
  constructor
  · rintro ⟨ended, _, calls, counts⟩
    cases isReverse with
    | true => exact .inl rfl
    | false =>
      obtain ⟨outcome, ended⟩ := ended
      rw [begin] at ended
      refine .inr ⟨fun stalls => not_ended_of_stalls denotes scope stalls _ outcome ended,
        fun long => not_ended_of_overlong denotes scope long outcome ended, fun stalls => ?_⟩
      obtain ⟨outcome, counted⟩ := (countNonOverlappingMatches_ended created calls).mp counts
      obtain ⟨matched, reports, inside⟩ := reports_of_stalls denotes scope stalls
      rw [← begin] at reports
      have folds : ∀ counted : MatchCount, counted.Fits content.length patternLength → ∃ after,
          Folds (fun _ => true) (countMatch false patternLength) counted (matched ++ [high]) after ∧
            after.Fits content.length patternLength := fun counted fits =>
        countMatch_folds small (by omega) (fun position mem => by
          have := inside position mem
          omega) fits
      have fresh : MatchCount.Fits ⟨0, none⟩ content.length patternLength := rfl
      have running := searchLoop_cycle reports (by simp) folds fresh calls 0
      exact nomatch running.symm.trans counted
  · intro goes
    have ends : ∀ advance : Nat, 0 < advance → (isReverse = true ∨
        ¬ context.Stalls content low high advance ∧ ¬ context.Overlong content low high advance) →
        ∃ outcome, matchLoop model advance (high - low + 1) context = .ok (some outcome) := by
      intro advance positive goes
      rw [begin]
      cases isReverse with
      | true =>
        obtain ⟨outcome, loop⟩ := reverse_ended denotes scope positive (le_refl high)
          (by rw [if_pos rfl])
        exact ⟨outcome, distance ▸ loop⟩
      | false =>
        obtain ⟨moves, regular⟩ := goes.resolve_left (by decide)
        exact ended_of_not_stalls denotes scope positive moves regular
    have ended := ends advance (by omega) (goes.imp_right fun all => ⟨all.1, all.2.1⟩)
    have single := ends 1 (by omega)
      (goes.imp_right fun all => ⟨all.2.2, fun long => absurd long.2.1 (by decide)⟩)
    obtain ⟨outcome, loop⟩ := single
    refine ⟨ended, fun limit => ⟨high - low + 1, ?_⟩, high - low + 1,
      (countNonOverlappingMatches_ended created _).mpr ?_⟩
    · exact searchLoop_ends (collectMatch_sound isReverse patternLength) loop [] 0
    · exact searchLoop_ends (countMatch_sound isReverse patternLength) loop _ 0

theorem match_iteration_ends_reverse :
    ∃ context, createContextBytes (opened ababa) (some ba) 2 0 4 .none true = some context ∧
      (∃ outcome, matchLoop (opened ababa) 3 5 context = .ok (some outcome)) ∧
      (∀ limit, ∃ calls outcome,
        collectMatches (opened ababa) true 2 limit calls context = .ok (some outcome)) ∧
      ∃ calls outcome, countNonOverlappingMatches (opened ababa) (some ba) 2 0 4 .none true calls =
        .ok (some outcome) := by
  have denotes : (opened ababa).HasContent ababa.bytes := createSession_denotes (some ababa) 0 0
  obtain ⟨context, created⟩ : ∃ context, createContextBytes (opened ababa) (some ba) 2 0 4 .none
    true = some context := ⟨_, rfl⟩
  exact ⟨context, created,
    (match_iteration_ends denotes created (by decide : (1 : Int) ≤ 3)).mpr (.inl rfl)⟩

def aa : OriginalFile := ⟨[97, 97], by decide⟩

/-- The search for `a` in the first byte of `aa` reports the second byte as well, which is at the
end of the range, and starts over. -/
theorem match_iteration_never_ends :
    (opened aa).HasContent aa.bytes ∧
    ∃ context, createContextBytes (opened aa) (some fun _ => 97) 1 0 1 .none false = some context ∧
      ∀ calls outcome, matchLoop (opened aa) 1 calls context ≠ .ok (some outcome) := by
  have denotes : (opened aa).HasContent aa.bytes := createSession_denotes (some aa) 0 0
  obtain ⟨context, created⟩ : ∃ context, createContextBytes (opened aa) (some fun _ => 97) 1 0 1
    .none false = some context := ⟨_, rfl⟩
  refine ⟨denotes, context, created, fun calls outcome => ?_⟩
  obtain ⟨low, high, scope, begin, offsetEq, endEq, _⟩ := createContextBytes_scope denotes created
  have stalls : context.Stalls aa.bytes 0 1 1 := by
    cases created
    refine ⟨[0], .next ⟨by decide, fun _ _ => Nat.zero_le _⟩ (.done fun _ known => ?_), by decide,
      fun _ known => known.1⟩
    have ends : _ + 1 ≤ 1 := known.2.2.1
    omega
  have least : low = 0 := by omega
  have last : high = 1 := Int.ofNat_inj.mp endEq.symm
  subst least last
  rw [begin]
  exact not_ended_of_stalls denotes scope stalls calls outcome

end SearchContext

end OmegaEdit
