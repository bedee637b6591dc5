import OmegaEdit.NextMatch

/-! What the loops over the matches of a search do. They end when the search runs out of matches, and
what they make of the matches is a fold over those that the search reports. -/
namespace OmegaEdit
open Transition (bind_eq_ok)

section Loop
variable {σ : Type} {model : Model} {goOn : σ → Bool} {body : σ → Int → Except Fault (Option σ)}

/-- The loop ends when the calls run out of matches, whatever its body does. -/
lemma searchLoop_ends (sound : ∀ state offset, ∃ next, body state offset = .ok next) {calls : Nat}
    {context : SearchContext} {outcome : List Int × Int}
    (ended : SearchContext.matchLoop model 1 calls context = .ok (some outcome)) (state : σ)
    (searchResult : Int) :
    ∃ result, searchLoop model goOn body calls context state searchResult = .ok (some result) := by
  induction calls generalizing context outcome state searchResult with
  | zero => exact nomatch ended
  | succ calls ih =>
    rw [searchLoop]
    cases goOn state with
    | false => exact ⟨_, rfl⟩
    | true =>
      obtain ⟨⟨next, result⟩, call, rest⟩ := bind_eq_ok.mp ended
      rw [if_pos rfl, call]
      dsimp only [bind, Except.bind] at rest ⊢
      split at rest
      · next positive =>
        rw [if_pos positive]
        obtain ⟨later, loop, rest⟩ := bind_eq_ok.mp rest
        obtain ⟨state, done⟩ := sound state next.matchOffset
        rw [done]
        cases state with
        | none => exact ⟨_, rfl⟩
        | some state =>
          cases later with
          | none => exact nomatch rest
          | some later => exact ih loop state result
      · next ends =>
        rw [if_neg ends]
        exact ⟨_, rfl⟩

/-- The body takes one match after the other. -/
inductive Folds (goOn : σ → Bool) (body : σ → Int → Except Fault (Option σ)) :
    σ → List Nat → σ → Prop
  | none {state : σ} : Folds goOn body state [] state
  | next {state after final : σ} {position : Nat} {rest : List Nat} :
      goOn state = true → body state position = .ok (some after) →
      Folds goOn body after rest final → Folds goOn body state (position :: rest) final

variable {context final : SearchContext} {positions : List Nat} {state after : σ}

lemma searchLoop_reports (reports : SearchContext.Reports model 1 context positions final)
    (folds : Folds goOn body state positions after) (calls : Nat) (searchResult : Int) :
    ∃ last, (last = searchResult ∨ last = 1) ∧
      searchLoop model goOn body (positions.length + calls) context state searchResult =
        searchLoop model goOn body calls final after last := by
  induction reports generalizing state searchResult with
  | none =>
    cases folds
    exact ⟨searchResult, .inl rfl, by rw [List.length_nil, Nat.zero_add]⟩
  | @next context final position rest call _ ih =>
    cases folds with
    | next goes done folds =>
      obtain ⟨last, known, loop⟩ := ih folds 1
      refine ⟨last, .inr (known.elim id id), ?_⟩
      rw [List.length_cons, Nat.add_right_comm, searchLoop, if_pos goes, call]
      dsimp only [bind, Except.bind]
      rw [if_pos (by decide), show (context.moved position).matchOffset = position from rfl, done]
      exact loop

lemma searchLoop_running (reports : SearchContext.Reports model 1 context positions final)
    (folds : Folds goOn body state positions after) {calls : Nat} (few : calls < positions.length)
    (searchResult : Int) :
    searchLoop model goOn body calls context state searchResult = .ok none := by
  induction reports generalizing state searchResult calls with
  | none => exact absurd few (Nat.not_lt_zero calls)
  | @next context final position rest call _ ih =>
    cases folds with
    | next goes done folds =>
      cases calls with
      | zero => rw [searchLoop, if_pos goes]
      | succ calls =>
        rw [searchLoop, if_pos goes, call]
        dsimp only [bind, Except.bind]
        rw [if_pos (by decide), show (context.moved position).matchOffset = position from rfl, done]
        exact ih folds (Nat.lt_of_succ_lt_succ few) 1

lemma searchLoop_more {calls more : Nat} (le : calls ≤ more) {searchResult : Int}
    {outcome : Option (SearchContext × σ × Int)}
    (ended : searchLoop model goOn body calls context state searchResult = .ok (some outcome)) :
    searchLoop model goOn body more context state searchResult = .ok (some outcome) := by
  induction calls generalizing more context state searchResult with
  | zero =>
    cases goes : goOn state with
    | true =>
      rw [searchLoop, if_pos goes] at ended
      exact nomatch ended
    | false =>
      rw [searchLoop, if_neg (by simp [goes])] at ended
      cases more with
      | zero | succ more => rwa [searchLoop, if_neg (by simp [goes])]
  | succ calls ih =>
    obtain ⟨more, rfl⟩ := Nat.exists_eq_succ_of_ne_zero (by omega : more ≠ 0)
    rw [Nat.succ_eq_add_one, searchLoop]
    rw [searchLoop] at ended
    cases goes : goOn state with
    | false =>
      rw [goes] at ended
      exact ended
    | true =>
      rw [goes, if_pos rfl] at ended
      rw [if_pos rfl]
      obtain ⟨⟨next, result⟩, call, ended⟩ := bind_eq_ok.mp ended
      refine bind_eq_ok.mpr ⟨⟨next, result⟩, call, ?_⟩
      dsimp only at ended ⊢
      split at ended
      · next positive =>
        rw [if_pos positive]
        obtain ⟨after, done, ended⟩ := bind_eq_ok.mp ended
        refine bind_eq_ok.mpr ⟨after, done, ?_⟩
        cases after with
        | none => exact ended
        | some after => exact ih (by omega) ended
      · next ends => rwa [if_neg ends]

/-- The loop over the matches of a search that then ends or fails. -/
lemma searchLoop_all {other : SearchContext} {result : Int}
    (reports : SearchContext.Reports model 1 context positions final)
    (folds : Folds goOn body state positions after) (goes : goOn after = true)
    (call : final.nextMatch model 1 = .ok (other, result)) (ends : result ≤ 0) (calls : Nat)
    (searchResult : Int) :
    searchLoop model goOn body (positions.length + (calls + 1)) context state searchResult =
      .ok (some (some (other, after, result))) := by
  obtain ⟨last, _, loop⟩ := searchLoop_reports reports folds (calls + 1) searchResult
  rw [loop, searchLoop, if_pos goes, call]
  exact if_neg (Int.not_lt.mpr ends)

/-- A loop whose calls come back to where they started does not end. -/
lemma searchLoop_cycle (reports : SearchContext.Reports model 1 context positions context)
    (nonempty : 0 < positions.length) {Keeps : σ → Prop}
    (folds : ∀ state, Keeps state → ∃ after, Folds goOn body state positions after ∧ Keeps after)
    (keeps : Keeps state) (calls : Nat) (searchResult : Int) :
    searchLoop model goOn body calls context state searchResult = .ok none := by
  induction calls using Nat.strongRecOn generalizing state searchResult with
  | _ calls ih =>
    obtain ⟨after, folded, kept⟩ := folds state keeps
    rcases Nat.lt_or_ge calls positions.length with few | many
    · exact searchLoop_running reports folded few searchResult
    · obtain ⟨rest, rfl⟩ := Nat.exists_eq_add_of_le many
      obtain ⟨last, _, loop⟩ := searchLoop_reports reports folded rest searchResult
      rw [loop]
      exact ih rest (by omega) kept last

end Loop

end OmegaEdit
