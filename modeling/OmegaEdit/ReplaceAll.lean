import OmegaEdit.MatchLoops
import OmegaEdit.ReverseSearch

/-! Replacing all matches by streaming. Both directions leave the content with the greedily chosen
occurrences replaced when the search reports exactly these. A forward search that spills replaces
a match that is not inside of the range, and a reverse search that is not covered fails or replaces
one below the range. -/
namespace OmegaEdit
open Splice
open Transition (bind_eq_ok)
open Occurrences Substitution
variable {cursor after : StreamCursor} {first start top position : Nat} {rest behind : List Nat}
  {written result file : List Byte} {total : Int} {write : BackwardWrite}
variable {model : Model} {content : List Byte}

section Streaming
variable (denotes : model.HasContent content)

include denotes

lemma streamExpecting_eq {offset endOffset : Nat} (stands : cursor.Stands model offset)
    (forward : offset ≤ endOffset) (inside : endOffset ≤ content.length) {expected : Int}
    (expects : expected = endOffset - offset) (write : Bool) :
    ∃ after, streamExpecting model cursor endOffset expected write =
      .ok (some (after, if write then slice content offset (endOffset - offset) else [])) ∧
      after.Stands model endOffset := by
  obtain ⟨after, streamed, there⟩ := streamSessionRange_eq denotes stands (Int.natCast_nonneg _)
    (Int.ofNat_le.mpr forward) (Int.ofNat_le.mpr inside) write
  refine ⟨after, ?_, there⟩
  have length : ((endOffset : Int) - offset).toNat = endOffset - offset := by omega
  rw [Int.toNat_natCast, length] at streamed
  simp only [streamExpecting, streamed, bind, Except.bind, expects, if_true]

lemma replaceLoop_step {word : List Byte} {width : Nat} {context : SearchContext}
    (here : context.matchOffset = first) (stands : cursor.Stands model start)
    (before : start ≤ first) (inside : first + width ≤ content.length) (written : List Byte)
    (calls : Nat) (count : Int) :
    ∃ after, after.Stands model (first + width : Nat) ∧
      replaceLoop model width word (calls + 1) context cursor written count =
        context.nextMatch model width >>= fun next =>
          if next.2 > 0 then
            replaceLoop model width word calls next.1 after
              (written ++ slice content start (first - start) ++ word) (count + 1)
          else if next.2 < 0 then .ok (some none)
          else .ok (some (some
            (after, written ++ slice content start (first - start) ++ word, count + 1))) := by
  have small := denotes.length_le
  obtain ⟨middle, copied, atMatch⟩ := streamExpecting_eq denotes stands before (by omega) rfl true
  obtain ⟨after, passed, atEnd⟩ := streamExpecting_eq denotes atMatch
    (by omega : first ≤ first + width) inside (by omega : (width : Int) = _) false
  have matchEnd : safeAdd (first : Int) width = some ((first + width : Nat) : Int) :=
    safeAdd_of_le (by omega) (by omega)
  refine ⟨after, atEnd, ?_⟩
  rw [replaceLoop, here, stands.1, if_neg (by omega), copied]
  simp only [matchEnd, passed, bind, Except.bind, if_true]

/-- The loop replaces the matches that the search reports. -/
lemma replaceLoop_reports {word : List Byte} {high : Nat} (within : high ≤ content.length)
    {width : Nat} {context final other : SearchContext} (here : context.matchOffset = first)
    (reports : SearchContext.Reports model width context rest final)
    (ended : final.nextMatch model width = .ok (other, 0)) (stands : cursor.Stands model start)
    (spaced : Spaced width high start (first :: rest)) {whole : List Byte}
    (so : written ++ substitute content width word start (first :: rest) = whole) (calls : Nat)
    (count : Int) :
    ∃ (after : StreamCursor) (stop : Nat) (result : List Byte),
      replaceLoop model width word (calls + rest.length + 1) context cursor written count =
        .ok (some (some (after, result, count + (first :: rest).length))) ∧
      after.Stands model stop ∧ stop ≤ high ∧ result ++ content.drop stop = whole := by
  induction rest generalizing context first cursor start written count with
  | nil =>
    have ends := spaced.2.cursor_le
    obtain ⟨after, atEnd, step⟩ := replaceLoop_step denotes here stands spaced.1
      (Nat.le_trans ends within) written calls count
    cases reports
    rw [ended] at step
    rw [substitute, ← List.append_assoc, ← List.append_assoc] at so
    exact ⟨after, first + width, _, step, atEnd, ends, so⟩
  | cons second rest ih =>
    have ends := spaced.2.cursor_le
    obtain ⟨after, atEnd, step⟩ := replaceLoop_step denotes here stands spaced.1
      (Nat.le_trans ends within) written (calls + rest.length + 1) count
    cases reports with
    | next call reports =>
      rw [call] at step
      rw [substitute, ← List.append_assoc, ← List.append_assoc] at so
      obtain ⟨last, stop, result, loop, there, le, same⟩ := ih rfl reports atEnd spaced.2 so
        (count + 1)
      have counted : count + 1 + ((second :: rest).length : Int) =
          count + ((first :: second :: rest).length : Int) := by
        simp only [List.length_cons]
        omega
      rw [counted] at loop
      exact ⟨last, stop, result, step.trans loop, there, le, same⟩

end Streaming

/-- A turn of a loop that succeeds takes one match and searches on. -/
lemma replaceLoop_succ {width : Int} {word : List Byte} {calls : Nat} {context : SearchContext}
    {count : Int} (loop : replaceLoop model width word (calls + 1) context cursor written count =
      .ok (some (some (after, result, total)))) :
    ∃ next searchResult, context.nextMatch model width = .ok (next, searchResult) ∧
      ((0 < searchResult ∧ ∃ cursor written, replaceLoop model width word calls next cursor written
          (count + 1) = .ok (some (some (after, result, total)))) ∨
        (searchResult ≤ 0 ∧ total = count + 1)) := by
  rw [replaceLoop] at loop
  split at loop
  · exact nomatch loop
  · obtain ⟨copied, _, loop⟩ := bind_eq_ok.mp loop
    match copied with
    | none => exact nomatch loop
    | some (middle, before) =>
      dsimp only at loop
      split at loop
      · exact nomatch loop
      · obtain ⟨passed, _, loop⟩ := bind_eq_ok.mp loop
        match passed with
        | none => exact nomatch loop
        | some (last, _) =>
          obtain ⟨⟨next, searchResult⟩, call, loop⟩ := bind_eq_ok.mp loop
          refine ⟨next, searchResult, call, ?_⟩
          dsimp only at loop
          split at loop
          · next positive => exact .inl ⟨positive, last, _, loop⟩
          · next ends =>
            split at loop
            · exact nomatch loop
            · cases loop
              exact .inr ⟨Int.not_lt.mp ends, rfl⟩

lemma lt_count_of_reports {width : Int} {word : List Byte} {calls : Nat}
    {context final : SearchContext} {positions : List Nat}
    (reports : SearchContext.Reports model width context positions final) {count : Int}
    (loop : replaceLoop model width word calls context cursor written count =
      .ok (some (some (after, result, total)))) : count + positions.length < total := by
  induction calls generalizing context final positions cursor written count with
  | zero => exact nomatch loop
  | succ calls ih =>
    obtain ⟨next, searchResult, called, outcome⟩ := replaceLoop_succ loop
    cases reports with
    | none =>
      rw [List.length_nil]
      obtain ⟨_, _, _, loop⟩ | ⟨_, last⟩ := outcome
      · have later := ih .none loop
        rw [List.length_nil] at later
        omega
      · omega
    | next call reports =>
      cases call.symm.trans called
      obtain ⟨_, _, _, loop⟩ | ⟨ends, _⟩ := outcome
      · have later := ih reports loop
        rw [List.length_cons]
        omega
      · exact absurd ends (by decide)

lemma promoteReplaced_eq (session : Session) (small : (file.length : Int) ≤ int64Max) (count : Int) :
    ∃ next, promoteReplaced session file file.length count = ⟨next, 0, count⟩ ∧
      next.top.HasContent file := by
  have nonneg : ¬ (file.length : Int) < 0 := by omega
  simp only [promoteReplaced, Session.createFile, Session.promotePlain, if_neg nonneg]
  exact ⟨_, if_neg (by decide), denotes_initializeModelSegments small⟩

lemma count_of_promoteReplaced {session next : Session} {fileSize count : Int}
    (done : promoteReplaced session file fileSize total = ⟨next, 0, count⟩) : total = count := by
  rw [promoteReplaced] at done
  dsimp only at done
  split at done
  · cases done
  · cases done
    rfl

lemma utilFileSize_eq (small : (file.length : Int) ≤ int64Max) :
    utilFileSize file = file.length := if_pos small

lemma spaced_of_climbs {context : SearchContext} {low high : Nat} {matched : List Nat}
    (climbs : Climbs (context.Hit content low high) context.pattern.length start matched)
    (le : start ≤ high) : Spaced context.pattern.length high start matched := by
  induction climbs with
  | done => exact le
  | next least _ ih => exact ⟨least.1.1, ih least.1.2.2.1⟩

lemma replaceFromMatch_eq {session : Session} (denotes : session.top.HasContent content)
    {width low high : Nat} (within : high ≤ content.length) {word : List Byte}
    {context final other : SearchContext} (here : context.matchOffset = first)
    (reports : SearchContext.Reports session.top width context rest final)
    (ended : final.nextMatch session.top width = .ok (other, 0))
    (spaced : Spaced width high low (first :: rest))
    (small : ((substitute content width word 0 (first :: rest)).length : Int) ≤ int64Max) :
    ∃ next, replaceFromMatch session width word low (high - low) (0 + rest.length + 1) context =
        .ok (some ⟨next, 0, (first :: rest).length⟩) ∧
      next.top.HasContent (substitute content width word 0 (first :: rest)) := by
  have size := session.size_eq_length denotes
  have bounded := denotes.length_le
  have le := spaced.cursor_le
  obtain ⟨cursor, start, atStart⟩ := initializeSessionStreamCursor_stands denotes (Int.le_refl 0)
    (Int.natCast_nonneg content.length)
  have replaceEnd : safeAdd (low : Int) (high - low) = some (high : Int) :=
    safeAdd_eq_some_iff.mpr ⟨by omega, by omega, by omega⟩
  obtain ⟨atLow, copied, standsLow⟩ := streamExpecting_eq denotes
    (show cursor.Stands session.top (0 : Nat) from atStart) (Nat.zero_le low) (by omega)
    (by rw [atStart.1]; rfl : (low : Int) - cursor.offset = _) true
  have front : substitute content width word 0 (first :: rest) =
      slice content 0 (low - 0) ++ substitute content width word low (first :: rest) :=
    substitute_split (spaced.widen within) (Nat.zero_le low)
  obtain ⟨after, stop, result, loop, there, before, same⟩ := replaceLoop_reports denotes within here
    reports ended standsLow spaced front.symm 0 0
  obtain ⟨atHigh, kept, standsHigh⟩ := streamExpecting_eq denotes there before within
    (by rw [there.1] : (high : Int) - after.offset = _) true
  obtain ⟨_, behind, _⟩ := streamExpecting_eq denotes standsHigh within (Nat.le_refl _)
    (by rw [standsHigh.1] : (content.length : Int) - atHigh.offset = _) true
  have file : result ++ slice content stop (high - stop) ++
      slice content high (content.length - high) =
        substitute content width word 0 (first :: rest) := by
    have parts := List.take_append_drop (high - stop) (content.drop stop)
    rw [List.drop_drop, Nat.add_sub_cancel' before] at parts
    rw [← same, slice_to_end (by omega : content.length ≤ high + (content.length - high)),
      List.append_assoc]
    congr 1
  obtain ⟨next, promoted, holds⟩ := promoteReplaced_eq session small (0 + (first :: rest).length)
  refine ⟨next, ?_, holds⟩
  simp only [replaceFromMatch, start, replaceEnd, copied, loop, kept, behind, size, bind,
    Except.bind, if_true, file, utilFileSize_eq small, promoted]
  rw [if_neg (by omega), Int.zero_add]

lemma replaceLoop_of_replaced {session next : Session} {width offset adjustedLength count : Int}
    {word : List Byte} {calls : Nat} {context : SearchContext}
    (done : replaceFromMatch session width word offset adjustedLength calls context =
      .ok (some ⟨next, 0, count⟩)) :
    ∃ cursor before after result, replaceLoop session.top width word calls context cursor before 0 =
      .ok (some (some (after, result, count))) := by
  unfold replaceFromMatch at done
  dsimp only at done
  split at done
  · obtain ⟨copied, _, done⟩ := bind_eq_ok.mp done
    match copied with
    | none => cases done
    | some (cursor, before) =>
      obtain ⟨looped, loop, done⟩ := bind_eq_ok.mp done
      match looped with
      | none | some none => cases done
      | some (some (after, result, total)) =>
        obtain ⟨kept, _, done⟩ := bind_eq_ok.mp done
        match kept with
        | none => cases done
        | some (_, inside) =>
          obtain ⟨rest, _, done⟩ := bind_eq_ok.mp done
          match rest with
          | none => cases done
          | some (_, behind) =>
            dsimp only at done
            split at done
            · cases done
            · cases count_of_promoteReplaced (Option.some.inj (Except.ok.inj done))
              exact ⟨cursor, before, after, result, loop⟩
  · cases done

section Forward
variable {session : Session} (denotes : session.top.HasContent content) {context : SearchContext}
  {low high : Nat} (scope : context.Scope content false low high) {selected : List Nat}
  (climbs : Climbs (context.Hit content low high) context.pattern.length low selected)
  {word : List Byte}

include denotes scope climbs

/-- A search that does not spill replaces the greedily chosen occurrences. -/
lemma replaceSearched_of_not_spills
    (confined : ¬ context.Spills content low high context.pattern.length)
    (small : ((substitute content context.pattern.length word 0 selected).length : Int) ≤
      int64Max) :
    ∃ calls next, replaceSearched session context.pattern.length word low (high - low) calls
        (context.moved high) = .ok (some ⟨next, 0, selected.length⟩) ∧
      next.top.HasContent (substitute content context.pattern.length word 0 selected) ∧
      (selected = [] → next = session) := by
  have within := scope.inside
  have room := scope.room
  have spaced := spaced_of_climbs climbs (by omega)
  obtain ⟨reports, found, last, least, _⟩ := SearchContext.forward_course denotes scope climbs
    (SearchContext.searchFrom_le scope (Nat.le_refl _) climbs)
  cases found with
  | some position => exact absurd ⟨selected, position, climbs, least.1⟩ confined
  | none =>
    cases selected with
    | nil =>
      refine ⟨0, session, ?_, denotes, fun _ => rfl⟩
      exact bind_eq_ok.mpr ⟨_, last, rfl⟩
    | cons first rest =>
      cases reports with
      | next call reports =>
        obtain ⟨next, replaced, holds⟩ := replaceFromMatch_eq denotes within rfl reports last spaced
          small
        refine ⟨0 + rest.length + 1, next, ?_, holds, nofun⟩
        exact bind_eq_ok.mpr ⟨_, call, replaced⟩

/-- A search that spills replaces more. -/
lemma lt_count_of_spills
    (spills : context.Spills content low high context.pattern.length) {calls : Nat}
    {next : Session} {count : Int}
    (done : replaceSearched session context.pattern.length word low (high - low) calls
      (context.moved high) = .ok (some ⟨next, 0, count⟩)) : selected.length < count := by
  obtain ⟨matched, reached, also, hit⟩ := spills
  cases also.unique climbs
  obtain ⟨reports, found, last, least, _⟩ := SearchContext.forward_course denotes scope climbs
    (SearchContext.searchFrom_le scope (Nat.le_refl _) climbs)
  cases found with
  | none => exact absurd hit (least reached)
  | some position =>
    have all := reports.append (.next last .none)
    generalize taken : selected ++ [position] = positions at all
    have length := congrArg List.length taken
    rw [List.length_append] at length
    cases all with
    | none => exact nomatch length
    | next call rest =>
      obtain ⟨_, called, done⟩ := bind_eq_ok.mp done
      cases call.symm.trans called
      obtain ⟨_, _, _, _, loop⟩ := replaceLoop_of_replaced done
      have counted := lt_count_of_reports rest loop
      change selected.length + 1 = _ + 1 at length
      omega

end Forward

lemma matchOverlapsPrior_below {width first : Nat} {lastAccepted : Option Int}
    (below : first + width ≤ top) (prior : lastAccepted = none ∨
      lastAccepted = some (top : Int) ∧ (top + width : Int) ≤ int64Max) :
    matchOverlapsPrior true lastAccepted first width = some false := by
  rcases prior with rfl | ⟨rfl, fits⟩
  · rfl
  · have matchEnd : safeAdd (first : Int) width = some ((first : Int) + width) :=
      safeAdd_of_le (by omega) (by omega)
    have lastEnd : safeAdd (top : Int) width = some ((top : Int) + width) :=
      safeAdd_of_le (by omega) (by omega)
    have clear : ¬ (top : Int) < first + width := by omega
    simp [matchOverlapsPrior, matchEnd, lastEnd, clear]

lemma countMatch_falls {width : Nat} {taken : List Nat} (falls : Falls width top taken)
    (small : (top : Int) ≤ int64Max) {counted : MatchCount} (prior : counted.lastAccepted = none ∨
      counted.lastAccepted = some (top : Int) ∧ (top + width : Int) ≤ int64Max)
    (nonneg : 0 ≤ counted.matchCount) (room : counted.matchCount + taken.length ≤ int64Max) :
    ∃ after, Folds (fun _ => true) (countMatch true width) counted taken after ∧
      after.matchCount = counted.matchCount + taken.length := by
  induction taken generalizing top counted with
  | nil => exact ⟨counted, .none, (Int.add_zero _).symm⟩
  | cons first rest ih =>
    obtain ⟨below, falls⟩ := falls
    rw [List.length_cons] at room
    have more : safeAdd counted.matchCount 1 = some (counted.matchCount + 1) :=
      safeAdd_of_le (by omega) (by omega)
    have taken : countMatch true width counted first =
        .ok (some ⟨counted.matchCount + 1, some first⟩) := by
      simp only [countMatch, matchOverlapsPrior_below below prior, more]
    obtain ⟨after, folds, total⟩ := @ih first falls (by omega) ⟨counted.matchCount + 1, some first⟩
      (.inr ⟨rfl, by omega⟩) (by show 0 ≤ counted.matchCount + 1; omega)
      (by show counted.matchCount + 1 + rest.length ≤ int64Max; omega)
    refine ⟨after, .next rfl taken folds, ?_⟩
    rw [total, List.length_cons]
    show counted.matchCount + 1 + rest.length = _
    omega

lemma writeSessionRangeToFileAt_eq (denotes : model.HasContent content) {stop : Nat}
    (forward : start ≤ stop) (inside : stop ≤ content.length) (file : List Byte) (output : Nat) :
    ∃ after, writeSessionRangeToFileAt model start stop file output = .ok (some after) ∧
      after.drop output = slice content start (stop - start) ++
        file.drop (output + (stop - start)) := by
  unfold writeSessionRangeToFileAt
  rw [if_neg (by omega)]
  by_cases empty : start = stop
  · subst empty
    exact ⟨file, if_pos rfl, by simp⟩
  · obtain ⟨cursor, created, stands⟩ := initializeSessionStreamCursor_stands denotes
      (Int.natCast_nonneg start) (by omega)
    obtain ⟨_, streamed, _⟩ := streamSessionRange_eq denotes stands (Int.natCast_nonneg start)
      (Int.ofNat_le.mpr forward) (Int.ofNat_le.mpr inside) true
    have length : ((stop : Int) - start).toNat = stop - start := by omega
    have size := length_slice_of_le (by omega : start + (stop - start) ≤ content.length)
    rw [if_neg (by omega), created]
    simp only [streamed, bind, Except.bind, if_true, Int.toNat_natCast, length]
    refine ⟨_, rfl, ?_⟩
    rw [drop_writeAt, size]

lemma writeBytesToFileAt_eq (file : List Byte) (output : Nat) (bytes : List Byte) :
    ∃ after, writeBytesToFileAt file output bytes = some after ∧
      after.drop output = bytes ++ file.drop (output + bytes.length) := by
  unfold writeBytesToFileAt
  rw [if_neg (by omega)]
  by_cases empty : bytes.length = 0
  · exact ⟨file, if_pos empty, by rw [List.eq_nil_of_length_eq_zero empty]; rfl⟩
  · exact ⟨_, if_neg empty, drop_writeAt 0 file output bytes⟩

/-- How far the file is written: it ends with the replaced part behind the input, and has room for
what is left before it. -/
structure BackwardWrite.Holds (write : BackwardWrite) (content : List Byte) (width : Nat)
    (word : List Byte) (input : Nat) (left : Nat) (behind : List Nat) : Prop where
  cursor : write.inputCursorEnd = input
  within : input ≤ content.length
  output : write.outputCursorEnd = input + left * ((word.length : Int) - width)
  file : write.file.drop write.outputCursorEnd.toNat = substitute content width word input behind
  spaced : Spaced width content.length input behind
  prior : write.lastAccepted = none ∨
    write.lastAccepted = some (input : Int) ∧ input + width ≤ content.length

section Backward
variable (denotes : model.HasContent content) {width : Nat} {word : List Byte}

include denotes

lemma writeMatch_holds {input left : Nat}
    (holds : write.Holds content width word input (left + 1) behind) (below : first + width ≤ input)
    (room : left * width ≤ first) :
    ∃ after, writeMatch model width word write first = .ok (some after) ∧
      after.Holds content width word first left (first :: behind) := by
  obtain ⟨cursor, within, output, file, spaced, prior⟩ := holds
  have bounded := denotes.length_le
  have least : int64Min = -9223372036854775808 := rfl
  -- what the matches below this one add or take away
  have product : (left : Int) * ((word.length : Int) - width) =
      ((left * word.length : Nat) : Int) - ((left * width : Nat) : Int) := by
    rw [Int.mul_sub, Int.natCast_mul, Int.natCast_mul]
  obtain ⟨start, begins⟩ := Int.eq_ofNat_of_zero_le
    (by omega : 0 ≤ (first : Int) + left * ((word.length : Int) - width))
  rw [Int.natCast_succ, Int.add_mul, Int.one_mul] at output
  have apart : matchOverlapsPrior true write.lastAccepted first width = some false :=
    matchOverlapsPrior_below below (prior.imp_right fun known => ⟨known.1, by omega⟩)
  have matchEnd : safeAdd (first : Int) width = some ((first + width : Nat) : Int) :=
    safeAdd_of_le (by omega) (by omega)
  have afterOffset : safeAdd write.outputCursorEnd
      (-(write.inputCursorEnd - ((first + width : Nat) : Int))) =
        some ((start + word.length : Nat) : Int) :=
    safeAdd_eq_some_iff.mpr ⟨by omega, by omega, by omega⟩
  have outputOffset : safeAdd ((start + word.length : Nat) : Int) (-(word.length : Int)) =
      some (start : Int) := safeAdd_eq_some_iff.mpr ⟨by omega, by omega, by omega⟩
  obtain ⟨middle, copied, tail⟩ := writeSessionRangeToFileAt_eq denotes below within write.file
    (start + word.length)
  obtain ⟨final, replaced, whole⟩ := writeBytesToFileAt_eq middle start word
  have place : start + word.length + (input - (first + width)) = write.outputCursorEnd.toNat := by
    omega
  refine ⟨⟨final, first, start, some first⟩, ?_, ⟨rfl, by omega, begins.symm, ?_,
    ⟨Nat.le_refl first, spaced.mono below⟩, .inr ⟨rfl, by omega⟩⟩⟩
  · rw [cursor] at afterOffset
    simp only [writeMatch, apart, matchEnd, cursor, afterOffset, copied, outputOffset, replaced, bind,
      Except.bind]
    exact if_neg (by omega)
  · show final.drop start = _
    rw [whole, tail, place, file, substitute, Nat.sub_self, slice_zero, List.nil_append,
      substitute_split spaced below]

lemma writeMatch_falls {taken : List Nat} (falls : Falls width top taken)
    (holds : write.Holds content width word top taken.length behind) :
    ∃ after input, Folds (fun _ => true) (writeMatch model width word) write taken after ∧
      after.Holds content width word input 0 (taken.reverse ++ behind) := by
  induction taken generalizing top write behind with
  | nil => exact ⟨write, top, .none, holds⟩
  | cons first rest ih =>
    obtain ⟨next, done, kept⟩ := writeMatch_holds denotes holds falls.1 falls.2.length_mul_le
    obtain ⟨after, input, folds, last⟩ := ih falls.2 kept
    refine ⟨after, input, .next rfl done folds, ?_⟩
    rwa [List.reverse_cons, List.append_assoc]

end Backward

lemma safeMultiply_safeAdd {size delta : Int} {count : Nat} (nonneg : 0 ≤ size)
    (bounded : size ≤ int64Max) (total : 0 ≤ size + count * delta)
    (small : size + count * delta ≤ int64Max) (least : int64Min < delta) :
    (safeMultiplyNonnegative count delta).bind (safeAdd size) = some (size + count * delta) := by
  have sum : safeAdd size (count * delta) = some (size + count * delta) :=
    safeAdd_eq_some_iff.mpr ⟨rfl, fun _ => small, fun _ => Int.le_trans (by decide) total⟩
  suffices product : safeMultiplyNonnegative count delta = some (count * delta) by
    rw [product]
    exact sum
  unfold safeMultiplyNonnegative
  rw [if_neg (by omega)]
  by_cases zero : (count : Int) = 0 ∨ delta = 0
  · rw [if_pos zero, Int.mul_eq_zero.mpr zero]
  · rw [if_neg zero]
    by_cases positive : delta > 0
    · rw [if_pos positive, if_neg]
      exact Int.not_lt.mpr (Int.le_ediv_of_mul_le positive (by omega))
    · rw [if_neg positive, if_neg (by omega), if_neg]
      refine Int.not_lt.mpr (Int.le_ediv_of_mul_le (by omega) ?_)
      rw [Int.mul_neg]
      omega

section Reverse
variable {session : Session} (denotes : session.top.HasContent content) {memory : Nat → Byte}
  {offset adjustedLength : Int} {caseFolding : CaseFolding} {context final other : SearchContext}
  {low high : Nat} (scope : context.Scope content true low high)
  (created : createContextBytes session.top (some memory) context.pattern.length offset
    adjustedLength caseFolding true = some (context.moved high)) {taken : List Nat}
  (reports : SearchContext.Reports session.top 1 (context.moved high) taken final)
  (falls : Falls context.pattern.length high taken)

include denotes scope created reports falls

lemma countNonOverlappingMatches_eq {result : Int}
    (ended : final.nextMatch session.top 1 = .ok (other, result)) (ends : result ≤ 0) (calls : Nat) :
    countNonOverlappingMatches session.top (some memory) context.pattern.length offset
        adjustedLength caseFolding true (taken.length + (calls + 1)) =
      .ok (some (if result < 0 then none else some taken.length)) := by
  have bounded := denotes.length_le
  have within := scope.inside
  have nonempty := scope.ready.nonempty
  have few := falls.length_mul_le
  have most : taken.length ≤ taken.length * context.pattern.length :=
    Nat.le_mul_of_pos_right _ nonempty
  obtain ⟨after, folds, total⟩ := countMatch_falls falls (by omega)
    (.inl rfl : (MatchCount.mk 0 none).lastAccepted = none ∨ _) (Int.le_refl 0)
    (by show (0 : Int) + taken.length ≤ int64Max; omega)
  have loop := searchLoop_all reports folds rfl ended ends calls 0
  simp only [countNonOverlappingMatches, created, loop, bind, Except.bind, total, Int.zero_add]

/-- Writing the file backwards over the matches of a reverse search. -/
lemma replaceBackward_eq {word : List Byte} (ended : final.nextMatch session.top 1 = .ok (other, 0))
    (small : ((substitute content context.pattern.length word 0 taken.reverse).length : Int) ≤
      int64Max) (calls : Nat) :
    ∃ next, replaceBackward session (some memory) context.pattern.length word caseFolding offset
        adjustedLength (taken.length + (calls + 1)) taken.length =
          .ok (some ⟨next, 0, taken.length⟩) ∧
      next.top.HasContent (substitute content context.pattern.length word 0 taken.reverse) := by
  have size := session.size_eq_length denotes
  have bounded := denotes.length_le
  have within := scope.inside
  have least : int64Min = -9223372036854775808 := rfl
  have most : int64Max = 9223372036854775807 := rfl
  have spaced : Spaced context.pattern.length content.length 0 taken.reverse := by
    have all := falls.spaced (show Spaced context.pattern.length content.length high [] from within)
    rwa [List.append_nil] at all
  have total : ((substitute content context.pattern.length word 0 taken.reverse).length : Int) = _ :=
    length_substitute spaced
  rw [List.length_reverse, Int.natCast_zero, Int.sub_zero] at total
  have short := scope.room
  have sum := safeMultiply_safeAdd (Int.natCast_nonneg content.length) bounded
    (by rw [← total]; exact Int.natCast_nonneg _) (by rw [← total]; exact small) (by omega)
  -- the file is empty and its end is where the content would end
  have holds : BackwardWrite.Holds ⟨[], content.length,
      (substitute content context.pattern.length word 0 taken.reverse).length, none⟩ content
      context.pattern.length word content.length taken.length [] :=
    ⟨rfl, Nat.le_refl _, total, by simp [substitute], Nat.le_refl _, .inl rfl⟩
  obtain ⟨after, input, folds, last⟩ := writeMatch_falls denotes (falls.mono within) holds
  have loop := searchLoop_all reports folds rfl ended (Int.le_refl 0) calls 0
  have output : after.outputCursorEnd = input := by rw [last.output]; simp
  have level : safeAdd (input : Int) (-(input : Int)) = some 0 :=
    safeAdd_eq_some_iff.mpr ⟨by omega, by omega, by omega⟩
  obtain ⟨file, written, whole⟩ := writeSessionRangeToFileAt_eq denotes (Nat.zero_le input)
    last.within after.file 0
  have rest := last.file
  rw [output, Int.toNat_natCast, List.append_nil] at rest
  have spacedLast := last.spaced
  rw [List.append_nil] at spacedLast
  have front : substitute content context.pattern.length word 0 taken.reverse = _ :=
    substitute_split spacedLast (Nat.zero_le input)
  rw [List.drop_zero, Nat.zero_add, Nat.sub_zero, rest] at whole
  rw [Nat.sub_zero, ← whole] at front
  rw [front] at small total loop ⊢
  obtain ⟨next, promoted, there⟩ := promoteReplaced_eq session small taken.length
  refine ⟨next, ?_, there⟩
  rw [Int.natCast_zero] at written
  simp only [replaceBackward, size, sum, created]
  rw [← total, if_neg (by omega), loop]
  simp only [bind, Except.bind, last.cursor, output, level, written, utilFileSize_eq small, promoted]
  rw [if_neg (by decide), if_neg (fun differs => differs rfl), if_neg (fun differs => differs rfl)]

end Reverse

lemma countNonOverlappingMatches_more {pattern : BytesPointer} {patternLength offset length : Int}
    {caseFolding : CaseFolding} {isReverse : Bool} {calls more : Nat} (le : calls ≤ more)
    {count : Option Int}
    (counted : countNonOverlappingMatches model pattern patternLength offset length caseFolding
      isReverse calls = .ok (some count)) :
    countNonOverlappingMatches model pattern patternLength offset length caseFolding isReverse
      more = .ok (some count) := by
  unfold countNonOverlappingMatches at counted ⊢
  split at counted
  · exact counted
  · obtain ⟨outcome, loop, counted⟩ := bind_eq_ok.mp counted
    cases outcome with
    | none => exact nomatch counted
    | some outcome =>
      exact bind_eq_ok.mpr ⟨_, searchLoop_more le loop, counted⟩

section Counted
variable {session next : Session} {pattern : BytesPointer} {width offset adjustedLength : Int}
  {word : List Byte} {caseFolding : CaseFolding} {calls : Nat} {count : Int}

/-- A backward replacement that succeeds reports the number it was given. -/
lemma count_of_replaceBackward {replacementCount : Int}
    (done : replaceBackward session pattern width word caseFolding offset adjustedLength calls
      replacementCount = .ok (some ⟨next, 0, count⟩)) : replacementCount = count := by
  unfold replaceBackward at done
  dsimp only at done
  split at done
  · cases done
  split at done
  · cases done
  split at done
  · cases done
  obtain ⟨looped, _, done⟩ := bind_eq_ok.mp done
  match looped with
  | none | some none => cases done
  | some (some (_, write, searchResult)) =>
    dsimp only at done
    split at done
    · cases done
    split at done
    · cases done
    obtain ⟨written, _, done⟩ := bind_eq_ok.mp done
    match written with
    | none => cases done
    | some file =>
      dsimp only at done
      split at done
      · cases done
      · exact count_of_promoteReplaced (Option.some.inj (Except.ok.inj done))

lemma count_of_replaceCounted
    (done : replaceCounted session pattern width word caseFolding offset adjustedLength calls =
      .ok (some ⟨next, 0, count⟩)) :
    countNonOverlappingMatches session.top pattern width offset adjustedLength caseFolding true
      calls = .ok (some (some count)) := by
  obtain ⟨counted, loop, done⟩ := bind_eq_ok.mp done
  match counted with
  | none | some none => cases done
  | some (some replacementCount) =>
    dsimp only at done
    split at done
    · next zero =>
      cases done
      rw [loop, zero]
    · rw [loop, count_of_replaceBackward done]

end Counted

/-- Arguments of a replacement that pass the checks. -/
structure Acceptable (content : List Byte) (patternLength : Int) (replacement : BytesPointer)
    (replacementLength offset length : Int) : Prop where
  nonempty : 0 < patternLength
  begins : 0 ≤ offset
  inside : offset ≤ content.length
  nonneg : 0 ≤ length
  fits : 0 ≤ replacementLength
  pointed : replacement = none → replacementLength = 0

section Request
variable {session : Session} (denotes : session.top.HasContent content) {memory : Nat → Byte}
  {patternLength replacementLength offset length : Int} {replacement : BytesPointer}
  (acceptable : Acceptable content patternLength replacement replacementLength offset length)

include denotes acceptable

/-- Acceptable arguments leave three cases. -/
lemma checkedReplace_eq {α : Type} (failed unchanged : α) (body : Int → Except Fault (Option α)) :
    checkedReplace session (some memory) patternLength replacement replacementLength offset length
        failed unchanged body = if session.changesPaused then .ok (some failed)
      else if adjustedRangeLength content.length offset length < patternLength then
        .ok (some unchanged)
      else body (adjustedRangeLength content.length offset length) := by
  have size := session.size_eq_length denotes
  have nonempty := acceptable.nonempty
  have begins := acceptable.begins
  have inside := acceptable.inside
  have nonneg := acceptable.nonneg
  have fits := acceptable.fits
  have pointed : ¬ (replacement.isNone ∧ replacementLength > 0) := by
    rintro ⟨null, positive⟩
    have := acceptable.pointed (Option.isNone_iff_eq_none.mp null)
    omega
  have adjusted : ¬ adjustedRangeLength content.length offset length < 0 := by
    unfold adjustedRangeLength
    split
    · omega
    · omega
  rw [checkedReplace, if_neg (by simp; omega), if_neg pointed, size]
  split
  · rfl
  · rw [if_neg (by omega)]
    dsimp only
    rw [if_neg adjusted]

end Request

/-- The greedy choice in the direction of the search. -/
def Greedy (isReverse : Bool) (P : Nat → Prop) (width low high : Nat) (selected : List Nat) : Prop :=
  if isReverse then Descends P width high selected else Climbs P width low selected

/-- The chosen places from left to right. -/
def upwards (isReverse : Bool) (selected : List Nat) : List Nat :=
  if isReverse then selected.reverse else selected

/-- The search that a replacement makes reports the greedy choice and ends. -/
def SearchContext.SearchesExactly (context : SearchContext) (content : List Byte) (low high : Nat)
    (isReverse : Bool) (selected : List Nat) : Prop :=
  if isReverse then ∀ top ∈ high :: selected, context.Covered content low top
  else ¬ context.Spills content low high context.pattern.length

lemma Greedy.mem {isReverse : Bool} {P : Nat → Prop} {width low high : Nat} {selected : List Nat}
    (greedy : Greedy isReverse P width low high selected) (mem : position ∈ selected) :
    P position := by
  cases isReverse with
  | false => exact (Climbs.mem greedy mem).2
  | true => exact (Descends.mem greedy mem).2

lemma exists_greedy (isReverse : Bool) {P : Nat → Prop} {width low high : Nat} (nonempty : 0 < width)
    (bounded : ∀ position, P position → position < high) :
    ∃ selected, Greedy isReverse P width low high selected := by
  cases isReverse with
  | false => exact exists_climbs nonempty bounded low
  | true => exact exists_descends nonempty high

/-- The session that a replacement leaves. -/
def Session.Replaces (session next : Session) (content : List Byte) (width : Nat) (word : List Byte)
    (isReverse : Bool) (selected : List Nat) : Prop :=
  next.top.HasContent (substitute content width word 0 (upwards isReverse selected)) ∧
    (selected = [] → next = session)

section Directions
variable {session : Session} (denotes : session.top.HasContent content) {memory : Nat → Byte}
  {patternLength offset adjusted : Int} {caseFolding : CaseFolding} {isReverse : Bool}
  {selected : List Nat}
  (greedy : Greedy isReverse (SearchContext.OccursIn
    (caseFolding.fold (readMemory memory patternLength)) (caseFolding.fold content) offset
    (offset + adjusted)) patternLength.toNat offset.toNat (offset + adjusted).toNat selected)
  (range : adjusted ≠ 0)

include denotes greedy range

lemma scope_of_greedy {context : SearchContext}
    (created : createContextBytes session.top (some memory) patternLength offset adjusted
      caseFolding isReverse = some context) :
    ∃ low high : Nat, context.Scope content isReverse low high ∧ context = context.moved high ∧
      offset = low ∧ adjusted = high - low ∧ patternLength = context.pattern.length ∧
      Greedy isReverse (context.Hit content low high) context.pattern.length low high selected := by
  obtain ⟨low, high, scope, begin, offsetEq, endEq, patternEq, foldingEq, width⟩ :=
    SearchContext.createContextBytes_scope denotes created
  rw [SearchContext.rangeEnd, if_pos range] at endEq
  refine ⟨low, high, scope, begin, offsetEq, by omega, width, ?_⟩
  have same : patternLength.toNat = context.pattern.length := by omega
  rw [SearchContext.hit_eq_occursIn, foldingEq]
  rwa [← patternEq, endEq, offsetEq, Int.toNat_natCast, Int.toNat_natCast, same] at greedy

/-- The forward replacement is right if and only if its search does not spill, and the reverse one if
and only if its search is covered all the way down. -/
lemma replaceOccurrences_iff (word : List Byte) :
    (∃ calls next, (if isReverse then replaceCounted session (some memory) patternLength word
          caseFolding offset adjusted calls
        else replaceStreamed session (some memory) patternLength word caseFolding offset adjusted
          calls) = .ok (some ⟨next, 0, selected.length⟩) ∧
      session.Replaces next content patternLength.toNat word isReverse selected) ↔
    ∃ context, createContextBytes session.top (some memory) patternLength offset adjusted
        caseFolding isReverse = some context ∧
      context.SearchesExactly content offset.toNat (offset + adjusted).toNat isReverse selected ∧
      ((substitute content patternLength.toNat word 0 (upwards isReverse selected)).length : Int) ≤
        int64Max := by
  cases created : createContextBytes session.top (some memory) patternLength offset adjusted
      caseFolding isReverse with
  | none =>
    cases isReverse with
    | false | true =>
      simp [replaceStreamed, replaceCounted, countNonOverlappingMatches, created, bind, Except.bind]
  | some context =>
    obtain ⟨low, high, scope, begin, rfl, rfl, rfl, chosen⟩ :=
      scope_of_greedy denotes greedy range created
    have stop : (low + ((high : Int) - low)).toNat = high := by omega
    simp only [Int.toNat_natCast, stop, Option.some.injEq, exists_eq_left']
    cases isReverse with
    | false =>
      simp only [Bool.false_eq_true, if_false, replaceStreamed, created]
      constructor
      · rintro ⟨calls, next, done, holds, _⟩
        rw [begin] at done
        refine ⟨fun spills => ?_, holds.length_le⟩
        exact absurd (lt_count_of_spills denotes scope chosen spills done) (Int.lt_irrefl _)
      · rintro ⟨confined, small⟩
        rw [begin]
        exact replaceSearched_of_not_spills denotes scope chosen confined small
    | true =>
      simp only [if_true]
      rw [begin] at created
      obtain ⟨taken, final, reports, falls, ends, fails⟩ :=
        SearchContext.reverse_course denotes scope (Nat.le_refl high) chosen
      have counts {result : Int} {other : SearchContext} :=
        @countNonOverlappingMatches_eq _ _ denotes _ _ _ _ _ final other _ _ scope created _ reports
          falls result
      constructor
      · rintro ⟨calls, next, done, holds, _⟩
        refine ⟨?_, holds.length_le⟩
        by_contra uncovered
        have counted := countNonOverlappingMatches_more
          (by omega : calls ≤ taken.length + (calls + 1)) (count_of_replaceCounted done)
        rcases fails uncovered with ⟨_, failed⟩ | ⟨extra, rfl, ended⟩
        · rw [counts failed (by decide)] at counted
          exact nomatch counted
        · rw [counts ended (Int.le_refl 0), if_neg (by decide), List.length_append] at counted
          have same := Option.some.inj (Option.some.inj (Except.ok.inj counted))
          change ((selected.length + 1 : Nat) : Int) = selected.length at same
          omega
      · rintro ⟨covered, small⟩
        obtain ⟨rfl, ended⟩ := ends covered
        have counted := counts ended (Int.le_refl 0) 0
        rw [if_neg (by decide)] at counted
        by_cases none : taken = []
        · subst none
          exact ⟨_, session, bind_eq_ok.mpr ⟨_, counted, rfl⟩, denotes, fun _ => rfl⟩
        · obtain ⟨next, replaced, holds⟩ := replaceBackward_eq denotes scope created reports falls
            ended small 0
          refine ⟨_, next, bind_eq_ok.mpr ⟨_, counted, ?_⟩, holds, fun same => absurd same none⟩
          have some : (taken.length : Int) ≠ 0 := by simpa using none
          exact (if_neg some).trans replaced

end Directions

section Exact
variable {session : Session} (denotes : session.top.HasContent content) {memory : Nat → Byte}
  {patternLength replacementLength offset length : Int} {replacement : BytesPointer}
  {caseFolding : CaseFolding} {isReverse : Bool} {selected : List Nat}

lemma inside_of_occursIn {text : List Byte} {low high : Int}
    (occurs : SearchContext.OccursIn (caseFolding.fold (readMemory memory patternLength)) text low high
      position) : low ≤ position ∧ position + patternLength ≤ high := by
  obtain ⟨begins, ends, _⟩ := occurs
  rw [CaseFolding.length_fold, readMemory, List.length_map, List.length_range] at ends
  exact ⟨begins, by omega⟩

lemma Greedy.eq_nil_of_short {text : List Byte} {low adjusted : Int}
    (greedy : Greedy isReverse (SearchContext.OccursIn
      (caseFolding.fold (readMemory memory patternLength)) text low (low + adjusted))
      patternLength.toNat low.toNat (low + adjusted).toNat selected)
    (short : adjusted < patternLength) : selected = [] := by
  refine List.eq_nil_iff_forall_not_mem.mpr fun position mem => ?_
  have inside := inside_of_occursIn (greedy.mem mem)
  omega

include denotes

theorem replace_all_touches_range
    (acceptable : Acceptable content patternLength replacement replacementLength offset length) :
    let Chosen := Greedy isReverse (SearchContext.OccursIn
      (caseFolding.fold (readMemory memory patternLength)) (caseFolding.fold content) offset
      (offset + adjustedRangeLength content.length offset length)) patternLength.toNat
      offset.toNat (offset + adjustedRangeLength content.length offset length).toNat
    (∃ selected, Chosen selected) ∧ ∀ selected, Chosen selected →
    ((∃ calls next, replaceAllBytesDirectional session (some memory) patternLength replacement
        replacementLength caseFolding isReverse offset length calls =
          .ok (some ⟨next, 0, selected.length⟩) ∧ session.Replaces next content patternLength.toNat
        (readPointer replacement replacementLength) isReverse selected) ↔
    session.changesPaused = false ∧
      (adjustedRangeLength content.length offset length < patternLength ∨
        ∃ context, createContextBytes session.top (some memory) patternLength offset
            (adjustedRangeLength content.length offset length) caseFolding isReverse =
              some context ∧ context.SearchesExactly content offset.toNat
            (offset + adjustedRangeLength content.length offset length).toNat isReverse selected ∧
          ((substitute content patternLength.toNat
            (readPointer replacement replacementLength) 0
            (upwards isReverse selected)).length : Int) ≤ int64Max)) := by
  intro Chosen
  have nonempty := acceptable.nonempty
  refine ⟨exists_greedy isReverse (by omega) fun position occurs => ?_, fun selected greedy => ?_⟩
  · have inside := inside_of_occursIn occurs
    omega
  have checked : ∀ calls, replaceAllBytesDirectional session (some memory) patternLength replacement
      replacementLength caseFolding isReverse offset length calls =
      if session.changesPaused then .ok (some ⟨session, -1, 0⟩)
      else if adjustedRangeLength content.length offset length < patternLength then
        .ok (some ⟨session, 0, 0⟩)
      else if isReverse then replaceCounted session (some memory) patternLength
        (readPointer replacement replacementLength) caseFolding offset
        (adjustedRangeLength content.length offset length) calls
      else replaceStreamed session (some memory) patternLength
        (readPointer replacement replacementLength) caseFolding offset
        (adjustedRangeLength content.length offset length) calls := by
    intro calls
    cases isReverse with
    | false | true =>
      simp only [replaceAllBytesDirectional, replaceAllBytes, replaceAllBytesReverseCheckpointed,
        checkedReplace_eq denotes acceptable, if_true, if_false, Bool.false_eq_true]
  have short := Greedy.eq_nil_of_short greedy
  have right := replaceOccurrences_iff denotes greedy
  simp only [checked]
  cases session.changesPaused with
  | true =>
    refine ⟨?_, fun known => nomatch known.1⟩
    rintro ⟨_, _, failed, _⟩
    exact nomatch failed
  | false =>
    rcases Int.lt_or_le (adjustedRangeLength content.length offset length) patternLength with
      less | enough
    · simp only [if_pos less]
      refine ⟨fun _ => ⟨trivial, .inl less⟩, fun _ => ⟨0, session, ?_, ?_, fun _ => rfl⟩⟩
      · rw [short less]
        rfl
      · rw [short less]
        cases isReverse with
        | false | true => exact denotes
    · have more := Int.not_lt.mpr enough
      simp only [if_neg more]
      refine (right (by omega) _).trans ⟨fun known => ⟨trivial, .inr known⟩, fun known => ?_⟩
      exact known.2.resolve_left more

end Exact

def ababaSession : Session := createSession (some SearchContext.ababa) 0 0

lemma ababaSession_denotes : ababaSession.top.HasContent SearchContext.ababa.bytes :=
  createSession_denotes (some SearchContext.ababa) 0 0

lemma eq_of_ba_occurs {low high : Int}
    (occurs : SearchContext.OccursIn (CaseFolding.none.fold (readMemory SearchContext.ba 2))
      (CaseFolding.none.fold SearchContext.ababa.bytes) low high position) :
    position = 1 ∨ position = 3 := by
  have all : ∀ place < 4, Occurs (CaseFolding.none.fold (readMemory SearchContext.ba 2))
      (CaseFolding.none.fold SearchContext.ababa.bytes) place → place = 1 ∨ place = 3 := by decide
  have inside : position + 2 ≤ 5 := occurs.2.2.inside (by decide)
  exact all position (by omega) occurs.2.2

lemma ba_greedy : Greedy false (SearchContext.OccursIn
    (CaseFolding.none.fold (readMemory SearchContext.ba 2))
    (CaseFolding.none.fold SearchContext.ababa.bytes) 0 (0 + adjustedRangeLength 5 0 0)) 2 0 5
    [1, 3] := by
  refine .next ⟨by decide, fun other known => ?_⟩ (.next ⟨by decide, fun other known => ?_⟩
    (.done fun other known => ?_))
  all_goals
    have place := eq_of_ba_occurs known.2
    omega

theorem replace_all_touches_whole :
    ∃ calls next, replaceAllBytesDirectional ababaSession (some SearchContext.ba) 2
        (some fun _ => 88) 1 .none false 0 0 calls = .ok (some ⟨next, 0, 2⟩) ∧
      ababaSession.Replaces next SearchContext.ababa.bytes 2 [88] false [1, 3] := by
  have acceptable : Acceptable SearchContext.ababa.bytes 2 (some fun _ => 88) 1 0 0 :=
    ⟨by decide, by decide, by decide, by decide, by decide, nofun⟩
  refine ((replace_all_touches_range ababaSession_denotes acceptable).2 _ ba_greedy).mpr
    ⟨rfl, .inr ⟨_, rfl, ?_, by decide⟩⟩
  exact SearchContext.not_spills_to_end (by decide) rfl

/-- Replacing `ba` by `X` in the first four bytes of `ababa` replaces its second occurrence too, of
which the last byte is the fifth one. -/
theorem replace_all_leaves_range :
    Acceptable SearchContext.ababa.bytes 2 (some fun _ => 88) 1 0 4 ∧
    Greedy false (SearchContext.OccursIn (CaseFolding.none.fold (readMemory SearchContext.ba 2))
      (CaseFolding.none.fold SearchContext.ababa.bytes) 0 (0 + adjustedRangeLength 5 0 4)) 2 0 4 [1] ∧
    substitute SearchContext.ababa.bytes 2 [88] 0 [1] = [97, 88, 98, 97] ∧
    ∃ next, replaceAllBytesDirectional ababaSession (some SearchContext.ba) 2 (some fun _ => 88) 1
        .none false 0 4 2 = .ok (some ⟨next, 0, 2⟩) ∧ next.top.HasContent [97, 88, 88] := by
  refine ⟨⟨by decide, by decide, by decide, by decide, by decide, nofun⟩, ?_, rfl, ?_⟩
  · refine .next ⟨by decide, fun other known => ?_⟩ (.done fun other known => ?_)
    · have place := eq_of_ba_occurs known.2
      omega
    · have place := eq_of_ba_occurs known.2
      have ends : (other : Int) + 2 ≤ 4 := known.2.2.1
      omega
  · exact ⟨_, rfl, @denotes_initializeModelSegments [97, 88, 88] (by decide)⟩

end OmegaEdit
