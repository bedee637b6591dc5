import OmegaEdit.Library.Occurrences
import OmegaEdit.Search

/-! The search inside of one buffer finds the first occurrence of the needle, and the reverse search
the last one. The skip table is built from the far end of a move to its near end, so that an entry
is the shortest move that brings an equal byte under the probe. -/
namespace OmegaEdit
open Occurrences

lemma getElem?_eq_getD {bytes : List Byte} {place : Nat} (inside : place < bytes.length) :
    bytes[place]? = some (bytes.getD place 0) := by
  rw [List.getD_eq_getElem?_getD, List.getElem?_eq_getElem inside]
  rfl

/-- After some rounds a move is safe as far as the needle has been read. -/
lemma forwardSkips_spec {needle : List Byte} {rounds : Nat} (within : rounds ≤ needle.length - 1)
    (long : 0 < needle.length) (byte : Byte) :
    0 < forwardSkips needle rounds byte ∧ forwardSkips needle rounds byte ≤ needle.length ∧
      ∀ place, place < rounds →
        needle.length - 1 - place < forwardSkips needle rounds byte → needle[place]? ≠ some byte := by
  induction rounds with
  | zero => exact ⟨long, Nat.le_refl _, nofun⟩
  | succ i ih =>
    obtain ⟨pos, le, safe⟩ := ih (by omega)
    rw [forwardSkips]
    split
    · refine ⟨by omega, by omega, fun place earlier short => ?_⟩
      omega
    · next differs =>
      refine ⟨pos, le, fun place earlier short => ?_⟩
      rcases Nat.lt_succ_iff_lt_or_eq.mp earlier with before | rfl
      · exact safe place before short
      · rw [getElem?_eq_getD (by omega)]
        exact fun same => differs (Option.some.inj same).symm

lemma reverseSkips_spec {needle : List Byte} {rounds : Nat} (within : rounds ≤ needle.length - 1)
    (long : 0 < needle.length) (byte : Byte) :
    0 < reverseSkips needle rounds byte ∧ reverseSkips needle rounds byte ≤ needle.length ∧
      ∀ place, needle.length - 1 - rounds < place →
        place < reverseSkips needle rounds byte → needle[place]? ≠ some byte := by
  induction rounds with
  | zero =>
    refine ⟨long, Nat.le_refl _, fun place later short => ?_⟩
    rw [reverseSkips] at short
    omega
  | succ i ih =>
    obtain ⟨pos, le, safe⟩ := ih (by omega)
    rw [reverseSkips]
    split
    · refine ⟨by omega, by omega, fun place later short => ?_⟩
      omega
    · next differs =>
      refine ⟨pos, le, fun place later short => ?_⟩
      rcases Nat.lt_or_ge (needle.length - 1 - i) place with before | reached
      · exact safe place before short
      · obtain rfl : place = needle.length - 1 - i := by omega
        rw [getElem?_eq_getD (by omega)]
        exact fun same => differs (Option.some.inj same).symm

lemma createSkipTable_forward {needle : List Byte} (long : 1 < needle.length) :
    SkipsForward needle (createSkipTable needle false).skip := by
  have spec := fun byte => forwardSkips_spec (Nat.le_refl (needle.length - 1)) (by omega) byte
  refine ⟨fun byte => (spec byte).1, fun byte => (spec byte).2.1, ?_⟩
  intro byte distance moved (short : distance < forwardSkips needle (needle.length - 1) byte)
  exact (spec byte).2.2 (needle.length - 1 - distance) (by omega) (by omega)

lemma createSkipTable_reverse {needle : List Byte} (long : 1 < needle.length) :
    SkipsBackward needle (createSkipTable needle true).skip := by
  have spec := fun byte => reverseSkips_spec (Nat.le_refl (needle.length - 1)) (by omega) byte
  refine ⟨fun byte => (spec byte).1, fun byte => (spec byte).2.1, ?_⟩
  intro byte distance moved short
  exact (spec byte).2.2 distance (by omega) short

section Loops
variable {haystack needle : List Byte} {skip : Byte → Nat}

/-- The test of the loop is whether the needle stands there. -/
lemma probe_iff {place position : Nat} (inside : place < needle.length)
    (room : position + needle.length ≤ haystack.length) :
    (needle.getD place 0 = haystack.getD (position + place) 0 ∧
      Splice.slice haystack position needle.length = needle) ↔ Occurs needle haystack position := by
  constructor
  · exact fun both => both.2
  · intro occurs
    refine ⟨?_, occurs⟩
    have same := occurs.getElem?_eq inside
    rw [getElem?_eq_getD (by omega), getElem?_eq_getD inside] at same
    exact (Option.some.inj same).symm

lemma findForward_least (skips : SkipsForward needle skip) (long : 0 < needle.length) {fuel : Nat}
    {position : Nat} (enough : haystack.length < position + fuel) :
    Least (fun place => position ≤ place ∧ Occurs needle haystack place)
      (findForward haystack needle skip fuel position) := by
  induction fuel generalizing position with
  | zero =>
    rintro place ⟨after, occurs⟩
    have inside := occurs.inside long
    omega
  | succ fuel ih =>
    rw [findForward]
    by_cases room : position + needle.length ≤ haystack.length
    · rw [if_pos room]
      dsimp only
      by_cases occurs : Occurs needle haystack position
      · rw [if_pos ((probe_iff (by omega) room).mpr occurs)]
        exact ⟨⟨Nat.le_refl _, occurs⟩, fun place further => further.1⟩
      · rw [if_neg (fun hit => occurs ((probe_iff (by omega) room).mp hit))]
        generalize seen : haystack.getD (position + (needle.length - 1)) 0 = probe
        have moved := skips.pos probe
        refine (ih (by omega)).congr fun place => ?_
        constructor
        · rintro ⟨after, there⟩
          exact ⟨by omega, there⟩
        · rintro ⟨after, there⟩
          refine ⟨Nat.not_lt.mp fun before => ?_, there⟩
          obtain ⟨distance, rfl⟩ := Nat.exists_eq_add_of_le after
          rcases Nat.eq_zero_or_pos distance with rfl | positive
          · exact occurs there
          · refine skips.not_occurs ?_ positive (by omega : distance < skip probe) there
            rw [getElem?_eq_getD (by omega), seen]
    · rw [if_neg room]
      rintro place ⟨after, occurs⟩
      have inside := occurs.inside long
      omega

lemma findReverse_greatest (skips : SkipsBackward needle skip) (long : 0 < needle.length)
    {fuel : Nat} {position : Int} (enough : position < fuel)
    (room : position + needle.length ≤ haystack.length) :
    Greatest (fun place => (place : Int) ≤ position ∧ Occurs needle haystack place)
      (findReverse haystack needle skip fuel position) := by
  induction fuel generalizing position with
  | zero =>
    rintro place ⟨before, _⟩
    omega
  | succ fuel ih =>
    rw [findReverse]
    by_cases nonneg : 0 ≤ position
    · rw [if_pos nonneg]
      obtain ⟨here, rfl⟩ := Int.eq_ofNat_of_zero_le nonneg
      rw [Int.toNat_natCast]
      dsimp only
      have test := probe_iff (by omega : 0 < needle.length)
        (by omega : here + needle.length ≤ haystack.length)
      rw [Nat.add_zero] at test
      by_cases occurs : Occurs needle haystack here
      · rw [if_pos (test.mpr occurs)]
        exact ⟨⟨Int.le_refl _, occurs⟩, fun place earlier => by have := earlier.1; omega⟩
      · rw [if_neg (fun hit => occurs (test.mp hit))]
        generalize seen : haystack.getD here 0 = probe
        have moved := skips.pos probe
        refine (ih (by omega) (by omega)).congr fun place => ?_
        constructor
        · rintro ⟨before, there⟩
          exact ⟨by omega, there⟩
        · rintro ⟨before, there⟩
          refine ⟨Int.not_lt.mp fun after => ?_, there⟩
          obtain ⟨distance, rfl⟩ := Nat.exists_eq_add_of_le (by omega : place ≤ here)
          rcases Nat.eq_zero_or_pos distance with rfl | positive
          · exact occurs there
          · refine skips.not_occurs ?_ positive (by omega : distance < skip probe) there
            rw [getElem?_eq_getD (by omega), seen]
    · rw [if_neg nonneg]
      rintro place ⟨before, _⟩
      omega

end Loops

lemma occurs_singleton {haystack : List Byte} {byte : Byte} {place : Nat} :
    Occurs [byte] haystack place ↔ haystack[place]? = some byte := by
  constructor
  · exact fun occurs => occurs.getElem?_eq Nat.zero_lt_one
  · intro found
    obtain ⟨inside, same⟩ := List.getElem?_eq_some_iff.mp found
    rw [Occurs, Splice.slice, List.drop_eq_getElem_cons inside, same]
    rfl

lemma idxOf?_least (haystack : List Byte) (byte : Byte) :
    Least (Occurs [byte] haystack) (haystack.idxOf? byte) := by
  cases found : haystack.idxOf? byte with
  | none =>
    intro place occurs
    rw [List.idxOf?_eq_none_iff] at found
    exact found (List.mem_of_getElem? (occurs_singleton.mp occurs))
  | some first =>
    obtain ⟨inside, same, earlier⟩ := List.idxOf?_eq_some_iff.mp found
    refine ⟨occurs_singleton.mpr (List.getElem?_eq_some_iff.mpr ⟨inside, same⟩), ?_⟩
    intro place occurs
    obtain ⟨_, there⟩ := List.getElem?_eq_some_iff.mp (occurs_singleton.mp occurs)
    exact Nat.not_lt.mp fun before => earlier place before there

lemma lastIndexOf_greatest (haystack : List Byte) (byte : Byte) :
    Greatest (Occurs [byte] haystack) (lastIndexOf byte haystack) := by
  induction haystack with
  | nil =>
    intro place occurs
    cases occurs_singleton.mp occurs
  | cons first rest ih =>
    have later (place : Nat) : Occurs [byte] (first :: rest) (place + 1) ↔ Occurs [byte] rest place := by
      rw [occurs_singleton, occurs_singleton, List.getElem?_cons_succ]
    rw [lastIndexOf]
    cases found : lastIndexOf byte rest with
    | some last =>
      rw [found] at ih
      refine ⟨(later last).mpr ih.1, fun place occurs => ?_⟩
      cases place with
      | zero => exact Nat.zero_le _
      | succ place => exact Nat.succ_le_succ (ih.2 place ((later place).mp occurs))
    | none =>
      rw [found] at ih
      dsimp only
      split
      · next same =>
        refine ⟨occurs_singleton.mpr (congrArg some same), fun place occurs => ?_⟩
        cases place with
        | zero => exact Nat.le_refl _
        | succ place => exact absurd ((later place).mp occurs) (ih place)
      · next differs =>
        intro place occurs
        cases place with
        | zero => exact differs (Option.some.inj (occurs_singleton.mp occurs))
        | succ place => exact ih place ((later place).mp occurs)

section Find
variable {haystack needle : List Byte} (long : 0 < needle.length)

include long

lemma find_forward_least :
    Least (Occurs needle haystack) (find haystack (createSkipTable needle false) needle) := by
  rw [find]
  split
  · next longer =>
    intro place occurs
    have inside := occurs.inside long
    omega
  · split
    · next single =>
      obtain ⟨byte, rfl⟩ := List.length_eq_one_iff.mp single
      exact idxOf?_least haystack byte
    · next several =>
      refine (findForward_least (createSkipTable_forward (by omega)) long (by omega)).congr ?_
      exact fun place => ⟨fun both => both.2, fun occurs => ⟨Nat.zero_le _, occurs⟩⟩

lemma find_reverse_greatest :
    Greatest (Occurs needle haystack) (find haystack (createSkipTable needle true) needle) := by
  rw [find]
  split
  · next longer =>
    intro place occurs
    have inside := occurs.inside long
    omega
  · split
    · next single =>
      obtain ⟨byte, rfl⟩ := List.length_eq_one_iff.mp single
      exact lastIndexOf_greatest haystack byte
    · next several =>
      refine (findReverse_greatest (createSkipTable_reverse (by omega)) long (by omega)
        (by omega)).congr ?_
      refine fun place => ⟨fun both => both.2, fun occurs => ⟨?_, occurs⟩⟩
      have inside := occurs.inside long
      omega

end Find

/-- The loop of `omega_find` with its reads checked: there is no answer when it reads outside of the
haystack, and none when it has not ended after so many rounds. -/
def findChecked (haystack needle : List Byte) (table : SkipTable) :
    Nat → Int → Option (Option Nat)
  | 0, _ => none
  | rounds + 1, position =>
    let probeAt := if table.isReverseSearch then 0 else needle.length - 1
    if if table.isReverseSearch then 0 ≤ position
        else position ≤ (haystack.length : Int) - needle.length then
      if position < 0 ∨ haystack.length < position + needle.length then none
      else
        let skip := haystack.getD (position.toNat + probeAt) 0
        if needle.getD probeAt 0 = skip ∧
            Splice.slice haystack position.toNat needle.length = needle then
          some (some position.toNat)
        else findChecked haystack needle table rounds
          (if table.isReverseSearch then position - table.skip skip else position + table.skip skip)
    else some none

section Checked
variable {haystack needle : List Byte} {skip : Byte → Nat} (moves : ∀ byte, 0 < skip byte)
  {rounds : Nat}
include moves

lemma findChecked_forward (long : 0 < needle.length) {position : Nat} (begun : 0 < rounds)
    (enough : haystack.length < position + rounds) :
    findChecked haystack needle ⟨skip, false⟩ rounds position =
      some (findForward haystack needle skip rounds position) := by
  induction rounds generalizing position with
  | zero => omega
  | succ rounds ih =>
    rw [findChecked, findForward]
    simp only [Bool.false_eq_true, if_false, Int.toNat_natCast]
    by_cases room : position + needle.length ≤ haystack.length
    · rw [if_pos (by omega), if_neg (by omega), if_pos room]
      split
      · rfl
      · generalize haystack.getD (position + (needle.length - 1)) 0 = probe
        have moved := moves probe
        exact ih (by omega) (by omega)
    · rw [if_neg (by omega), if_neg room]

lemma findChecked_reverse {position : Int} (begun : 0 < rounds) (enough : position + 1 < rounds)
    (room : position + needle.length ≤ haystack.length) :
    findChecked haystack needle ⟨skip, true⟩ rounds position =
      some (findReverse haystack needle skip rounds position) := by
  induction rounds generalizing position with
  | zero => omega
  | succ rounds ih =>
    rw [findChecked, findReverse]
    simp only [if_true, Nat.add_zero]
    by_cases nonneg : 0 ≤ position
    · rw [if_pos nonneg, if_neg (by omega), if_pos nonneg]
      split
      · rfl
      · generalize haystack.getD position.toNat 0 = probe
        have moved := moves probe
        exact ih (by omega) (by omega) (by omega)
    · rw [if_neg nonneg, if_neg nonneg]

end Checked

/-- `omega_find` answers with the first place of the needle, or for a reverse search with the last
one, and with none exactly when there is no such place. Its loop ends, and reads the haystack only. -/
theorem omega_find_finds (haystack : List Byte) {needle : List Byte} (long : 0 < needle.length) :
    Least (Occurs needle haystack) (find haystack (createSkipTable needle false) needle) ∧
      Greatest (Occurs needle haystack) (find haystack (createSkipTable needle true) needle) ∧
      ∀ isReverseSearch, 1 < needle.length → needle.length ≤ haystack.length →
        findChecked haystack needle (createSkipTable needle isReverseSearch) (haystack.length + 1)
            (if isReverseSearch then haystack.length - needle.length else 0) =
          some (find haystack (createSkipTable needle isReverseSearch) needle) := by
  refine ⟨find_forward_least long, find_reverse_greatest long, ?_⟩
  intro isReverseSearch several short
  rw [find, if_neg (Nat.not_lt.mpr short), if_neg (Nat.ne_of_gt several)]
  cases isReverseSearch with
  | false =>
    have moves := (createSkipTable_forward several).pos
    have enough : haystack.length < 0 + (haystack.length + 1) := by omega
    exact findChecked_forward moves long (Nat.succ_pos _) enough
  | true =>
    have moves := (createSkipTable_reverse several).pos
    have room : (haystack.length : Int) - needle.length + needle.length ≤ haystack.length := by omega
    exact findChecked_reverse moves (Nat.succ_pos _) (by omega) room

theorem omega_find_finds_last :
    find [1, 2, 1, 2, 1] (createSkipTable [1, 2] true) [1, 2] = some 2 ∧
      Greatest (Occurs [(1 : Byte), 2] [1, 2, 1, 2, 1])
        (find [1, 2, 1, 2, 1] (createSkipTable [1, 2] true) [1, 2]) :=
  ⟨by decide, (omega_find_finds _ (by decide : 0 < [(1 : Byte), 2].length)).2.1⟩

end OmegaEdit
