import OmegaEdit.NextMatch

/-! A forward search that advances by one. It reports the occurrences of the range in order. After
the last of them it searches once more, and this search can reach past the range: by one place, or
to the end of the content when what is left is as long as the largest window. -/
namespace OmegaEdit
open Occurrences
namespace SearchContext
variable {context : SearchContext} {content : List Byte} {model : Model} {low high : Nat}

/-- The positions are the occurrences from `low` to `high`, each once and in increasing order. -/
def InOrder (pattern text : List Byte) (low high : Int) (positions : List Int) : Prop :=
  positions.Pairwise (· < ·) ∧ ∀ position, position ∈ positions ↔
    low ≤ position ∧ position + pattern.length ≤ high ∧ Occurs pattern text position.toNat

/-- After its last match inside of the range the search finds one that is not. -/
def Spills (context : SearchContext) (content : List Byte) (low high advance : Nat) : Prop :=
  ∃ matched position, Climbs (context.Hit content low high) advance low matched ∧
    context.Hit content (searchFrom low advance matched.getLast?)
      (searchTo content low high advance matched.getLast?) position

lemma le_searchTo (inside : high ≤ content.length) (advance : Nat) (last : Option Nat) :
    high ≤ searchTo content low high advance last := by
  cases last with
  | none =>
    rw [searchTo]
    split
    · exact le_refl high
    · exact inside
  | some last =>
    rw [searchTo]
    split
    · exact Nat.le_add_right high advance
    · exact inside

lemma le_searchFrom {advance : Nat} {last : Option Nat} (known : ∀ position ∈ last, low ≤ position) :
    low ≤ searchFrom low advance last := by
  cases last with
  | none => exact le_refl low
  | some last => exact le_trans (known last rfl) (Nat.le_add_right last advance)

lemma le_of_searchFrom {advance position : Nat} {last : Option Nat}
    (reached : searchFrom low advance last ≤ position) :
    last.elim low (· + advance) ≤ position := by
  cases last with
  | none | some => exact reached

lemma getLast?_cons_or (first : Nat) (rest : List Nat) (last : Option Nat) :
    (first :: rest).getLast?.or last = rest.getLast?.or (some first) := by
  rw [List.getLast?_cons]
  cases rest.getLast? with
  | none => rfl
  | some => rfl

/-- A range up to the end of the content leaves nothing to spill into. -/
lemma not_spills_to_end (positive : 0 < context.pattern.length) (last : high = content.length)
    {advance : Nat} : ¬ context.Spills content low high advance := by
  rintro ⟨matched, position, climbs, hit⟩
  have inside := hit.inside positive
  have above := le_trans (le_searchFrom fun position last =>
    (climbs.mem (List.mem_of_getLast? last)).1) hit.1
  exact climbs.not_after (le_of_searchFrom hit.1) ⟨above, by omega, hit.2.2⟩

section Forward
variable (denotes : model.HasContent content) (scope : context.Scope content false low high)
  {advance : Nat} {matched : List Nat}

include denotes scope

/-- The calls before the last match inside of the range. -/
lemma forward_reports (last : Option Nat)
    (known : ∀ position ∈ last, low ≤ position ∧ position + context.pattern.length ≤ high)
    (climbs : Climbs (context.Hit content low high) advance (searchFrom low advance last) matched) :
    Reports model advance (context.moved (last.getD high)) matched
      (context.moved ((matched.getLast?.or last).getD high)) := by
  have inside := scope.inside
  generalize origin : searchFrom low advance last = start at climbs
  induction climbs generalizing last with
  | done => exact .none
  | @next start first rest least _ ih =>
    obtain ⟨begins, hit⟩ := least.1
    have ends := hit.2.1
    obtain ⟨found, call, nearest⟩ := nextMatch_forward denotes (scope.moved (last.getD high)) rfl
      (fun position same => (known position same).2) (by omega : searchFrom low advance last ≤ content.length)
    have same : found = some first := by
      refine nearest.unique ⟨⟨by omega, ?_, hit.2.2⟩, fun other reached => ?_⟩
      · exact le_trans ends (le_searchTo inside advance last)
      · rcases lt_or_ge other first with before | after
        · have above := le_trans (le_searchFrom fun position same => (known position same).1)
            reached.1
          exact least.2 other ⟨origin ▸ reached.1, above, by omega, reached.2.2⟩
        · exact after
    subst same
    rw [getLast?_cons_or]
    refine .next call (@ih (some first) (fun position same => ?_) rfl)
    cases same
    exact ⟨hit.1, ends⟩

/-- The course of a forward search: it reports the greedy choice, and then what its last call reaches. -/
lemma forward_course (climbs : Climbs (context.Hit content low high) advance low matched)
    (within : searchFrom low advance matched.getLast? ≤ content.length) :
    Reports model advance (context.moved high) matched
      (context.moved (matched.getLast?.getD high)) ∧
    ∃ found : Option Nat, (context.moved (matched.getLast?.getD high)).nextMatch model advance =
        .ok (context.settled high found) ∧
      Least (context.Hit content (searchFrom low advance matched.getLast?)
        (searchTo content low high advance matched.getLast?)) found ∧
      ∀ position ∈ found, high < position + context.pattern.length := by
  have known : ∀ position ∈ matched.getLast?, context.Hit content low high position :=
    fun position last => (climbs.mem (List.mem_of_getLast? last)).2
  obtain ⟨found, call, least⟩ := nextMatch_forward denotes
    (scope.moved (matched.getLast?.getD high)) rfl
    (fun position last => (known position last).2.1) within
  have reports := forward_reports denotes scope none nofun climbs
  rw [Option.or_none] at reports
  refine ⟨reports, found, call, least, fun position same => not_le.mp fun ends => ?_⟩
  have hit := least.mem same
  have above := le_trans (le_searchFrom fun position last => (known position last).1) hit.1
  exact climbs.not_after (le_of_searchFrom hit.1) ⟨above, ends, hit.2.2⟩

omit denotes in
/-- A search that advances by no more than the pattern goes on inside of the content. -/
lemma searchFrom_le (short : advance ≤ context.pattern.length)
    (climbs : Climbs (context.Hit content low high) advance low matched) :
    searchFrom low advance matched.getLast? ≤ content.length := by
  have inside := scope.inside
  have room := scope.room
  cases last : matched.getLast? with
  | none => exact le_trans (Nat.le_add_right low _) (le_trans room inside)
  | some position =>
    have ends := (climbs.mem (List.mem_of_getLast? last)).2.2.1
    change position + advance ≤ content.length
    omega

/-- A search that does not spill ends after the matches of the range. -/
lemma matchLoop_of_not_spills (short : advance ≤ context.pattern.length)
    (climbs : Climbs (context.Hit content low high) advance low matched)
    (confined : ¬ context.Spills content low high advance) :
    matchLoop model advance (matched.length + 1) (context.moved high) =
      .ok (some (matched.map Nat.cast, 0)) := by
  obtain ⟨reports, found, call, least, _⟩ := forward_course denotes scope climbs
    (searchFrom_le scope short climbs)
  cases found with
  | some position => exact absurd ⟨matched, position, climbs, least.1⟩ confined
  | none =>
    rw [reports.matchLoop_eq, matchLoop_end call (Int.le_refl 0)]
    exact congrArg (fun offsets => Except.ok (some (offsets, 0))) (List.append_nil _)

/-- A search that spills reports a match outside of the range if it ends. -/
lemma exists_outside_of_spills (short : advance ≤ context.pattern.length)
    (spills : context.Spills content low high advance) {calls : Nat} {outcome : List Int × Int}
    (ended : matchLoop model advance calls (context.moved high) = .ok (some outcome)) :
    ∃ position ∈ outcome.1, high < position + context.pattern.length := by
  obtain ⟨matched, reached, climbs, hit⟩ := spills
  obtain ⟨reports, found, call, least, outside⟩ := forward_course denotes scope climbs
    (searchFrom_le scope short climbs)
  cases found with
  | none => exact absurd hit (least reached)
  | some position =>
    have outside := outside position rfl
    obtain ⟨later, _, offsets⟩ := (reports.append (.next call .none)).of_ended ended
    refine ⟨position, ?_, by omega⟩
    rw [offsets]
    simp

end Forward

theorem forward_search_exact (denotes : model.HasContent content) {memory : Nat → Byte}
    {patternLength offset length : Int} {caseFolding : CaseFolding}
    (created : createContextBytes model (some memory) patternLength offset length caseFolding
      false = some context) :
    (∃ calls positions, matchLoop model 1 calls context = .ok (some (positions, 0)) ∧
      InOrder (caseFolding.fold (readMemory memory patternLength)) (caseFolding.fold content)
        offset (rangeEnd content.length offset length) positions) ↔
      ¬ context.Spills content offset.toNat (rangeEnd content.length offset length).toNat 1 := by
  obtain ⟨low, high, scope, begin, offsetEq, endEq, patternEq, foldingEq, _⟩ :=
    createContextBytes_scope denotes created
  rw [endEq, offsetEq, Int.toNat_natCast, Int.toNat_natCast, ← patternEq, ← foldingEq]
  have positive := scope.ready.nonempty
  constructor
  · rintro ⟨calls, positions, loop, _, complete⟩ spills
    rw [begin] at loop
    obtain ⟨position, known, outside⟩ := exists_outside_of_spills denotes scope positive spills loop
    have inside := ((complete position).mp known).2.1
    omega
  · intro confined
    obtain ⟨matched, climbs⟩ := exists_climbs (P := context.Hit content low high) Nat.one_pos
      (fun number hit => (by have := hit.2.1; omega : number < high)) low
    have loop := matchLoop_of_not_spills denotes scope positive climbs confined
    rw [← begin] at loop
    refine ⟨_, _, loop, ?_, fun position => ?_⟩
    · rw [List.pairwise_map]
      exact climbs.pairwise.imp fun before => Int.ofNat_lt.mpr before
    · rw [List.mem_map]
      constructor
      · rintro ⟨number, mem, rfl⟩
        obtain ⟨_, begins, ends, occurs⟩ := climbs.mem mem
        exact ⟨Int.ofNat_le.mpr begins, by omega, occurs⟩
      · rintro ⟨begins, ends, occurs⟩
        refine ⟨position.toNat, (climbs.mem_iff _).mpr ⟨by omega, by omega, by omega, ?_⟩, by omega⟩
        exact occurs

def ababa : OriginalFile := ⟨[97, 98, 97, 98, 97], by decide⟩

def opened (original : OriginalFile) : Model := (createSession (some original) 0 0).top

def ba : Nat → Byte := fun place => if place = 0 then 98 else 97

theorem forward_search_exact_to_end :
    ∃ context, createContextBytes (opened ababa) (some ba) 2 1 0 .none false = some context ∧
      ∃ calls positions, matchLoop (opened ababa) 1 calls context = .ok (some (positions, 0)) ∧
        InOrder (CaseFolding.none.fold (readMemory ba 2)) (CaseFolding.none.fold ababa.bytes) 1
          (rangeEnd 5 1 0) positions :=
  ⟨_, rfl, (forward_search_exact (createSession_denotes (some ababa) 0 0) rfl).mpr
    (not_spills_to_end (by decide) rfl)⟩

/-- The search for `ba` in the first four bytes of `ababa` reports its second occurrence, of which
the last byte is the fifth one. -/
theorem forward_search_leaves_range :
    (opened ababa).HasContent ababa.bytes ∧
    ∃ context, createContextBytes (opened ababa) (some ba) 2 0 4 .none false = some context ∧
      matchLoop (opened ababa) 1 3 context = .ok (some ([1, 3], 0)) ∧
      ¬ ∃ calls positions, matchLoop (opened ababa) 1 calls context = .ok (some (positions, 0)) ∧
        InOrder (CaseFolding.none.fold (readMemory ba 2)) (CaseFolding.none.fold ababa.bytes) 0
          (rangeEnd 5 0 4) positions := by
  have ends : ∀ context, createContextBytes (opened ababa) (some ba) 2 0 4 .none false =
      some context → matchLoop (opened ababa) 1 3 context = .ok (some ([1, 3], 0)) := by
    intro context created
    cases created
    rfl
  refine ⟨createSession_denotes (some ababa) 0 0, _, rfl, ends _ rfl, ?_⟩
  rintro ⟨calls, positions, loop, inOrder⟩
  obtain ⟨rfl, _⟩ := Prod.mk.inj (matchLoop_unique (ends _ rfl) loop)
  have inside := ((inOrder.2 3).mp (by simp)).2.1
  revert inside
  decide

end SearchContext

end OmegaEdit
