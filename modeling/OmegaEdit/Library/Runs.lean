import Mathlib.Data.List.SplitBy
import Mathlib.Data.List.TakeWhile
import Mathlib.Tactic.Common

/-! Runs of equal keys at either end of a list. A history that marks its groups
by one alternating bit is read group by group through these runs. -/
namespace Runs
universe u v
variable {α : Type u} {κ : Type v} [DecidableEq κ] {key : α → κ}

/-- The longest prefix whose elements all have the key of the first. -/
def leadingRun (key : α → κ) : List α → List α
  | [] => []
  | first :: rest => first :: rest.takeWhile (fun x => key x = key first)

/-- The longest suffix whose elements all have the key of the last. -/
def trailingRun (key : α → κ) (xs : List α) : List α :=
  (leadingRun key xs.reverse).reverse

/-- What precedes the trailing run. -/
def beforeTrailingRun (key : α → κ) (xs : List α) : List α :=
  xs.take (xs.length - (trailingRun key xs).length)

def groups (key : α → κ) (xs : List α) : List (List α) :=
  xs.splitBy (fun x y => decide (key x = key y))

lemma leadingRun_cons_of_eq {first second : α} (rest : List α) (same : key first = key second) :
    leadingRun key (first :: second :: rest) = first :: leadingRun key (second :: rest) := by
  simp [leadingRun, same]

/-- The leading run is a prefix: what follows it starts with another key. -/
lemma leadingRun_spec (key : α → κ) (xs : List α) :
    leadingRun key xs ++ xs.drop (leadingRun key xs).length = xs ∧
      (∀ x ∈ leadingRun key xs, ∀ first ∈ xs.head?, key x = key first) ∧
      ∀ next ∈ (xs.drop (leadingRun key xs).length).head?, ∀ first ∈ xs.head?,
        key next ≠ key first := by
  cases xs with
  | nil => exact ⟨rfl, by simp [leadingRun], by simp⟩
  | cons first rest =>
    have split : leadingRun key (first :: rest) ++ rest.dropWhile (fun x => key x = key first) =
        first :: rest := by
      rw [leadingRun, List.cons_append, List.takeWhile_append_dropWhile]
    have remaining : (first :: rest).drop (leadingRun key (first :: rest)).length =
        rest.dropWhile (fun x => key x = key first) := by
      generalize leadingRun key (first :: rest) = run at split ⊢
      rw [← split, List.drop_left]
    rw [remaining]
    refine ⟨split, ?_, ?_⟩
    · intro x mem other head
      cases head
      rcases List.mem_cons.mp mem with rfl | later
      · rfl
      · simpa using List.mem_takeWhile_imp later
    · intro next head other first'
      cases first'
      cases dropped : rest.dropWhile (fun x => key x = key first) with
      | nil => simp [dropped] at head
      | cons y ys =>
        rw [dropped] at head
        cases head
        have ne : rest.dropWhile (fun x => decide (key x = key first)) ≠ [] := by
          rw [dropped]
          exact List.cons_ne_nil next ys
        have stops := List.head_dropWhile_not (fun x => decide (key x = key first)) ne
        simpa [dropped] using stops

/-- The trailing run is a suffix: what precedes it ends with another key. -/
lemma trailingRun_spec (key : α → κ) (xs : List α) :
    beforeTrailingRun key xs ++ trailingRun key xs = xs ∧ (xs ≠ [] → trailingRun key xs ≠ []) ∧
      (∀ x ∈ trailingRun key xs, ∀ y ∈ trailingRun key xs, key x = key y) ∧
      ∀ x ∈ (beforeTrailingRun key xs).getLast?, ∀ y ∈ trailingRun key xs, key x ≠ key y := by
  obtain ⟨split, same, other⟩ := leadingRun_spec key xs.reverse
  generalize xs.reverse.drop (leadingRun key xs.reverse).length = rest at split other
  have parts : xs = rest.reverse ++ trailingRun key xs := by
    have reversed := congrArg List.reverse split.symm
    rw [List.reverse_reverse, List.reverse_append] at reversed
    exact reversed
  have before : beforeTrailingRun key xs = rest.reverse := by
    unfold beforeTrailingRun
    have length := congrArg List.length parts
    rw [List.length_append] at length
    calc
      xs.take (xs.length - (trailingRun key xs).length)
        = (rest.reverse ++ trailingRun key xs).take rest.reverse.length := by
          rw [← parts]
          congr 1
          omega
      _ = rest.reverse := List.take_left
  have keys : ∀ x ∈ trailingRun key xs, ∀ first ∈ xs.reverse.head?, key x = key first :=
    fun x mem => same x (List.mem_reverse.mp mem)
  have nonempty : xs ≠ [] → ∃ first, xs.reverse.head? = some first := by
    intro ne
    cases reversed : xs.reverse with
    | nil => exact absurd (List.reverse_eq_nil_iff.mp reversed) ne
    | cons first _ => exact ⟨first, rfl⟩
  refine ⟨by rw [before, ← parts], ?_, ?_, ?_⟩
  · intro ne empty
    cases reversed : xs.reverse with
    | nil => exact ne (List.reverse_eq_nil_iff.mp reversed)
    | cons first others =>
      unfold trailingRun at empty
      rw [reversed, leadingRun] at empty
      simp at empty
  · intro x xMem y yMem
    have ne : xs ≠ [] := by
      rintro rfl
      cases xMem
    obtain ⟨first, head⟩ := nonempty ne
    rw [keys x xMem first head, keys y yMem first head]
  · intro x xMem y yMem
    have ne : xs ≠ [] := by
      rintro rfl
      cases yMem
    obtain ⟨first, head⟩ := nonempty ne
    rw [before, List.getLast?_reverse] at xMem
    rw [keys y yMem first head]
    exact other x xMem first head

lemma leadingRun_append {run rest : List α} (ne : run ≠ [])
    (same : ∀ x ∈ run, ∀ y ∈ run, key x = key y)
    (stops : ∀ x ∈ run, ∀ next ∈ rest.head?, key next ≠ key x) :
    leadingRun key (run ++ rest) = run := by
  cases run with
  | nil => exact absurd rfl ne
  | cons first others =>
    rw [List.cons_append, leadingRun]
    congr 1
    rw [List.takeWhile_append_of_pos]
    · cases rest with
      | nil => simp
      | cons next later =>
        have stop := stops first (by simp) next (by simp)
        rw [List.takeWhile_cons_of_neg (by simpa using stop), List.append_nil]
    · intro x mem
      simpa using same x (List.mem_cons_of_mem first mem) first (by simp)

/-- The last group is the trailing run. -/
lemma groups_eq_append (xs : List α) (ne : xs ≠ []) :
    groups key xs = groups key (beforeTrailingRun key xs) ++ [trailingRun key xs] := by
  obtain ⟨split, nonempty, same, other⟩ := trailingRun_spec key xs
  have whole : groups key (trailingRun key xs) = [trailingRun key xs] := by
    refine List.splitBy_of_isChain (nonempty ne) ?_
    refine List.Pairwise.isChain ?_
    refine List.pairwise_of_forall_mem_list ?_
    intro x xMem y yMem
    simpa using same x xMem y yMem
  have parts : groups key (beforeTrailingRun key xs ++ trailingRun key xs) =
      groups key (beforeTrailingRun key xs) ++ groups key (trailingRun key xs) := by
    refine List.splitBy_append ?_
    intro x xMem y yMem
    simpa using other x xMem y (List.mem_of_mem_head? yMem)
  rw [split, whole] at parts
  exact parts

lemma flatten_groups (key : α → κ) (xs : List α) : (groups key xs).flatten = xs :=
  List.flatten_splitBy _ xs

lemma leadingRun_map {β : Type*} (key : β → κ) (f : α → β) (xs : List α) :
    leadingRun key (xs.map f) = (leadingRun (fun x => key (f x)) xs).map f := by
  cases xs with
  | nil => rfl
  | cons first rest =>
    rw [List.map_cons, leadingRun, leadingRun, List.map_cons, List.takeWhile_map]
    rfl

lemma trailingRun_map {β : Type*} (key : β → κ) (f : α → β) (xs : List α) :
    trailingRun key (xs.map f) = (trailingRun (fun x => key (f x)) xs).map f := by
  rw [trailingRun, trailingRun, ← List.map_reverse, leadingRun_map, List.map_reverse]

lemma beforeTrailingRun_map {β : Type*} (key : β → κ) (f : α → β) (xs : List α) :
    beforeTrailingRun key (xs.map f) = (beforeTrailingRun (fun x => key (f x)) xs).map f := by
  rw [beforeTrailingRun, beforeTrailingRun, trailingRun_map, List.length_map, List.length_map,
    List.map_take]

lemma groups_map {β : Type*} (key : β → κ) (f : α → β) (xs : List α) :
    groups key (xs.map f) = (groups (fun x => key (f x)) xs).map (List.map f) := by
  rw [groups, List.splitBy_eq_iff]
  refine ⟨?_, ?_, ?_, ?_⟩
  · rw [← List.map_flatten, flatten_groups]
  · intro empty
    obtain ⟨group, mem, none⟩ := List.mem_map.mp empty
    exact List.ne_nil_of_mem_splitBy mem (List.map_eq_nil_iff.mp none)
  · intro mapped mem
    obtain ⟨group, groupMem, rfl⟩ := List.mem_map.mp mem
    rw [List.isChain_map]
    exact List.isChain_of_mem_splitBy groupMem
  · rw [List.isChain_map]
    refine List.IsChain.imp ?_ (List.isChain_getLast_head_splitBy _ xs)
    rintro first second ⟨firstNonempty, secondNonempty, boundary⟩
    refine ⟨by simpa using firstNonempty, by simpa using secondNonempty, ?_⟩
    rw [List.getLast_map, List.head_map]
    exact boundary

end Runs
