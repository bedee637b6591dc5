import OmegaEdit.ForwardSearch
import OmegaEdit.Library.Substitution

/-! A reverse search that advances by one. What is left of the range ends at the last match. While
it is shorter than the largest window the search looks at all of it. Otherwise the windows go back
from its end by a fixed stride: they do not stop at the beginning of the range, and the search
fails when the next one would begin before the content. -/
namespace OmegaEdit
open Occurrences Substitution
namespace SearchContext
variable {context : SearchContext} {content : List Byte} {model : Model} {low high : Nat}

/-- A search down from `top` finds what it should: it has one window, or its windows meet an
occurrence of the range before they leave the content. -/
def Covered (context : SearchContext) (content : List Byte) (low top : Nat) : Prop :=
  (top - low : Int) < maxSegmentLength ∨
    ∃ position, Greatest (context.Hit content low top) (some position) ∧
      context.Reachable top position

lemma hit_top {top : Nat} (within : top ≤ high) (position : Nat) :
    context.Hit content low top position ↔
      position + context.pattern.length ≤ top ∧ context.Hit content low high position := by
  constructor
  · rintro ⟨begins, ends, occurs⟩
    exact ⟨ends, begins, by omega, occurs⟩
  · rintro ⟨ends, begins, _, occurs⟩
    exact ⟨begins, ends, occurs⟩

lemma moved_top (context : SearchContext) (high top : Nat) :
    if (context.moved top).matchOffset = high then (top : Int) = high
      else (context.moved top).matchOffset + 1 = top + (1 : Nat) := by
  split
  · next same => exact same
  · rfl

section Reverse
variable (denotes : model.HasContent content) (scope : context.Scope content true low high)
  {top : Nat}

include denotes scope

lemma nextMatch_covered (within : top ≤ high) (covered : context.Covered content low top) :
    ∃ found : Option Nat, (context.moved top).nextMatch model 1 = .ok (context.settled high found) ∧
      Greatest (context.Hit content low top) found := by
  have here := context.moved_top high top
  rcases Nat.lt_or_ge top (low + context.pattern.length) with short | room
  · refine ⟨none, nextMatch_reverse_over denotes (scope.moved top) here ?_, fun position hit => ?_⟩
    · exact Int.ofNat_lt.mpr short
    · have begins := hit.1
      have ends := hit.2.1
      omega
  by_cases near : (top - low : Int) < maxSegmentLength
  · exact nextMatch_reverse_near denotes (scope.moved top) here (Int.ofNat_le.mpr within) room
      within near
  · obtain ⟨position, greatest, reachable⟩ := covered.resolve_left near
    have last : Greatest (context.Hit content 0 top) (some position) := by
      refine ⟨⟨Nat.zero_le _, greatest.1.2⟩, fun other hit => ?_⟩
      rcases Nat.lt_or_ge other low with below | above
      · exact Nat.le_trans (Nat.le_of_lt below) greatest.1.1
      · exact greatest.2 other ⟨above, hit.2⟩
    refine ⟨some position, ?_, greatest⟩
    exact (nextMatch_reverse_far denotes (scope.moved top) here (Int.ofNat_le.mpr within) room
      within (by omega) last).trans (congrArg Except.ok (if_pos ⟨position, rfl, reachable⟩))

/-- Otherwise the search fails or leaves the range. -/
lemma nextMatch_not_covered (within : top ≤ high) (uncovered : ¬ context.Covered content low top) :
    (context.moved top).nextMatch model 1 = .ok (context.moved top, -1) ∨
      ∃ position < low, position + context.pattern.length ≤ top ∧
        (∀ other, ¬ context.Hit content low top other) ∧
        (context.moved top).nextMatch model 1 = .ok (context.moved position, 1) := by
  have here := context.moved_top high top
  have short := scope.ready.pattern_lt
  have far : maxSegmentLength ≤ (top - low : Int) := Int.not_lt.mp fun near => uncovered (.inl near)
  obtain ⟨found, greatest⟩ := exists_greatest (P := context.Hit content 0 top)
    (fun position hit => (by have := hit.2.1; omega : position ≤ top))
  have call := nextMatch_reverse_far denotes (scope.moved top) here (Int.ofNat_le.mpr within)
    (by change low + context.pattern.length ≤ top; omega) within far greatest
  by_cases reachable : ∃ position ∈ found, (context.moved top).Reachable top position
  · rw [if_pos reachable] at call
    obtain ⟨position, same, reachable⟩ := reachable
    cases same
    have below : position < low := by
      refine Nat.not_le.mp fun above => uncovered (.inr ⟨position, ?_, reachable⟩)
      exact ⟨⟨above, greatest.1.2⟩, fun other hit => greatest.2 other ⟨Nat.zero_le _, hit.2⟩⟩
    refine .inr ⟨position, below, greatest.1.2.1, fun other hit => ?_, call⟩
    have last := greatest.2 other ⟨Nat.zero_le _, hit.2⟩
    exact absurd (Nat.le_trans hit.1 last) (Nat.not_le.mpr below)
  · rw [if_neg reachable] at call
    exact .inl call

variable {positions : List Nat}

/-- The course of a reverse search: it reports the greedy choice and ends if it is covered all the
way down; otherwise it fails, or reports one more match below the range and ends. -/
lemma reverse_course (within : top ≤ high)
    (descends : Descends (context.Hit content low high) context.pattern.length top positions) :
    ∃ taken final, Reports model 1 (context.moved top) taken final ∧
      Falls context.pattern.length top taken ∧
      ((∀ lower ∈ top :: positions, context.Covered content low lower) →
        taken = positions ∧ final.nextMatch model 1 = .ok (context.moved high, 0)) ∧
      ((¬ ∀ lower ∈ top :: positions, context.Covered content low lower) →
        taken <+: positions ∧ final.nextMatch model 1 = .ok (final, -1) ∨
          ∃ extra, taken = positions ++ [extra] ∧
            final.nextMatch model 1 = .ok (context.moved high, 0)) := by
  induction descends with
  | @done top greatest =>
    by_cases covered : context.Covered content low top
    · obtain ⟨found, call, last⟩ := nextMatch_covered denotes scope within covered
      cases (last.congr (hit_top within)).unique greatest
      refine ⟨[], _, .none, trivial, fun _ => ⟨rfl, call⟩, fun uncovered => ?_⟩
      exact absurd (fun lower mem => List.mem_singleton.mp mem ▸ covered) uncovered
    · rcases nextMatch_not_covered denotes scope within covered with
        fails | ⟨position, below, ends, _, call⟩
      · exact ⟨[], _, .none, trivial, fun all => absurd (all top List.mem_cons_self) covered,
          fun _ => .inl ⟨List.nil_prefix, fails⟩⟩
      · have past := nextMatch_reverse_over denotes (scope.moved position)
          (context.moved_top high position) (by omega)
        exact ⟨[position], _, .next call .none, ⟨ends, trivial⟩,
          fun all => absurd (all top List.mem_cons_self) covered,
          fun _ => .inr ⟨position, rfl, past⟩⟩
  | @next top first rest greatest _ ih =>
    have lower := greatest.1.1
    by_cases covered : context.Covered content low top
    · obtain ⟨found, call, last⟩ := nextMatch_covered denotes scope within covered
      cases (last.congr (hit_top within)).unique greatest
      obtain ⟨taken, final, reports, falls, ends, fails⟩ := ih (by omega)
      refine ⟨first :: taken, final, .next call reports, ⟨lower, falls⟩, fun all => ?_,
        fun uncovered => ?_⟩
      · obtain ⟨same, ended⟩ := ends fun other mem => all other (List.mem_cons_of_mem _ mem)
        exact ⟨congrArg (first :: ·) same, ended⟩
      · refine (fails fun all => uncovered fun other mem => ?_).imp
          (fun ⟨begins, failed⟩ => ⟨List.cons_prefix_cons.mpr ⟨rfl, begins⟩, failed⟩)
          fun ⟨extra, same, ended⟩ => ⟨extra, congrArg (first :: ·) same, ended⟩
        rcases List.mem_cons.mp mem with rfl | later
        · exact covered
        · exact all other later
    · rcases nextMatch_not_covered denotes scope within covered with
        fails | ⟨position, below, ends, none, call⟩
      · exact ⟨[], _, .none, trivial, fun all => absurd (all top List.mem_cons_self) covered,
          fun _ => .inl ⟨List.nil_prefix, fails⟩⟩
      · exact absurd ((hit_top within first).mpr greatest.1) (none first)

/-- A search that is covered all the way down reports the greedy choice. -/
lemma matchLoop_of_covered (within : top ≤ high)
    (descends : Descends (context.Hit content low high) context.pattern.length top positions)
    (covered : ∀ lower ∈ top :: positions, context.Covered content low lower) :
    matchLoop model 1 (positions.length + 1) (context.moved top) =
      .ok (some (positions.map Nat.cast, 0)) := by
  obtain ⟨taken, final, reports, _, ends, _⟩ := reverse_course denotes scope within descends
  obtain ⟨rfl, ended⟩ := ends covered
  rw [reports.matchLoop_eq, matchLoop_end ended (Int.le_refl 0)]
  exact congrArg (fun offsets => Except.ok (some (offsets, 0))) (List.append_nil _)

lemma covered_of_matchLoop (within : top ≤ high)
    (descends : Descends (context.Hit content low high) context.pattern.length top positions)
    {calls : Nat}
    (loop : matchLoop model 1 calls (context.moved top) = .ok (some (positions.map Nat.cast, 0))) :
    ∀ lower ∈ top :: positions, context.Covered content low lower := by
  obtain ⟨taken, final, reports, _, _, fails⟩ := reverse_course denotes scope within descends
  obtain ⟨later, rest, same⟩ := reports.of_ended loop
  by_contra uncovered
  rcases fails uncovered with ⟨_, failed⟩ | ⟨extra, rfl, _⟩
  · exact nomatch matchLoop_unique (matchLoop_end failed (by decide) 0) rest
  · have lengths := congrArg List.length same
    rw [List.length_append, List.length_map, List.length_map, List.length_append] at lengths
    change positions.length = positions.length + 1 + later.length at lengths
    omega

end Reverse

theorem reverse_search_exact (denotes : model.HasContent content) {memory : Nat → Byte}
    {patternLength offset length : Int} {caseFolding : CaseFolding}
    (created : createContextBytes model (some memory) patternLength offset length caseFolding
      true = some context) :
    let Chosen := Descends (OccursIn (caseFolding.fold (readMemory memory patternLength))
      (caseFolding.fold content) offset (rangeEnd content.length offset length))
      patternLength.toNat (rangeEnd content.length offset length).toNat
    (∃ positions, Chosen positions) ∧ ∀ positions, Chosen positions →
      ((∃ calls, matchLoop model 1 calls context = .ok (some (positions.map Nat.cast, 0))) ↔
        ∀ top ∈ (rangeEnd content.length offset length).toNat :: positions,
          context.Covered content offset.toNat top) := by
  intro Chosen
  obtain ⟨low, high, scope, begin, offsetEq, endEq, patternEq, foldingEq, width⟩ :=
    createContextBytes_scope denotes created
  have nonempty := scope.ready.nonempty
  refine ⟨exists_descends (by omega) _, fun positions descends => ?_⟩
  dsimp only [Chosen] at descends
  rw [endEq, offsetEq, ← patternEq, ← foldingEq, width, ← hit_eq_occursIn, Int.toNat_natCast,
    Int.toNat_natCast] at descends
  rw [endEq, offsetEq, Int.toNat_natCast, Int.toNat_natCast]
  constructor
  · rintro ⟨calls, loop⟩
    rw [begin] at loop
    exact covered_of_matchLoop denotes scope (Nat.le_refl high) descends loop
  · intro covered
    refine ⟨positions.length + 1, ?_⟩
    rw [begin]
    exact matchLoop_of_covered denotes scope (Nat.le_refl high) descends covered

theorem reverse_search_exact_small :
    ∃ context, createContextBytes (opened ababa) (some ba) 2 0 0 .none true = some context ∧
      ∃ calls, matchLoop (opened ababa) 1 calls context = .ok (some ([3, 1], 0)) := by
  have descends : Descends (OccursIn (CaseFolding.none.fold (readMemory ba 2))
      (CaseFolding.none.fold ababa.bytes) 0 (rangeEnd 5 0 0)) 2 5 [3, 1] :=
    .next ⟨by decide, fun _ known => by omega⟩
      (.next ⟨by decide, fun _ known => by omega⟩ (.done fun _ known => by omega))
  have near : ∀ top : Nat, top ∈ [5, 3, 1] → (top - (0 : Nat) : Int) < maxSegmentLength := by decide
  exact ⟨_, rfl, ((reverse_search_exact (createSession_denotes (some ababa) 0 0) rfl).2 _ descends).mpr
    fun top mem => .inl (near top mem)⟩

/-- As many zero bytes as the largest window holds. -/
def zeros : OriginalFile :=
  ⟨List.replicate 1048576 0, by rw [List.length_replicate]; decide⟩

/-- The reverse search for a byte that is not there fails: after the first window the next one
would begin before the content. -/
theorem reverse_search_fails :
    (opened zeros).HasContent zeros.bytes ∧
    ∃ context, createContextBytes (opened zeros) (some (fun _ => 1)) 1 0 0 .none true = some context ∧
      Descends (OccursIn [1] zeros.bytes 0 1048576) 1 1048576 [] ∧
      context.nextMatch (opened zeros) 1 = .ok (context, -1) ∧
      ¬ ∃ calls, matchLoop (opened zeros) 1 calls context = .ok (some ([], 0)) := by
  have denotes : (opened zeros).HasContent zeros.bytes := createSession_denotes (some zeros) 0 0
  have length : (zeros.bytes.length : Int) = 1048576 := congrArg Nat.cast List.length_replicate
  have size : (opened zeros).computedFileSize = 1048576 := (computedFileSize_eq denotes).trans length
  obtain ⟨context, created⟩ : ∃ context, createContextBytes (opened zeros) (some (fun _ => 1)) 1 0 0
      .none true = some context := by
    unfold createContextBytes
    rw [size]
    exact ⟨_, rfl⟩
  obtain ⟨low, high, scope, begin, offsetEq, endEq, patternEq, foldingEq, width⟩ :=
    createContextBytes_scope denotes created
  rw [length] at endEq
  have absent : ∀ position, ¬ Occurs [1] zeros.bytes position := fun position occurs =>
    absurd (List.eq_of_mem_replicate (occurs.mem List.mem_cons_self)) (by decide)
  have uncovered : ¬ context.Covered zeros.bytes low high := by
    rintro (near | ⟨position, greatest, _⟩)
    · have limit : maxSegmentLength = 1048576 := rfl
      change (0 : Int) + 1048576 = high at endEq
      omega
    · have occurs := greatest.1.2.2
      rw [text, patternEq, foldingEq, CaseFolding.fold_none, CaseFolding.fold_none] at occurs
      exact absent position occurs
  rcases nextMatch_not_covered denotes scope (Nat.le_refl high) uncovered with
    fails | ⟨position, below, _⟩
  · rw [← begin] at fails
    refine ⟨denotes, context, created, .done fun position known => absent position known.2.2.2, fails,
      ?_⟩
    rintro ⟨calls, loop⟩
    cases matchLoop_unique (matchLoop_end fails (by decide) calls) loop
  · omega

end SearchContext

end OmegaEdit
