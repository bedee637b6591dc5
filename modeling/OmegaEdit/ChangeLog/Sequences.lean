import Mathlib.Data.List.Dedup
import Mathlib.Data.List.ReduceOption
import OmegaEdit.ChangeLog.Codec

/-! The order of the entries of a log: the validator sees one entry at a time, and accepts exactly
the sequences that are numbered throughout or not at all and in which no group comes back. -/
namespace OmegaEdit.ChangeLog
open Transition (bind_eq_ok)
open Utf16
variable {κ : Type*} {limits : CodecLimits} {entries : List NormalizedEntry} {entry : NormalizedEntry}

section Grouped
variable {groups : List (Option κ)} {last : Option κ} {group : κ}

/-- Each group is one run. -/
def Grouped (groups : List (Option κ)) : Prop :=
  ∀ (i j k : Nat) (group : κ), i ≤ j → j ≤ k → groups[i]? = some (some group) →
    groups[k]? = some (some group) → groups[j]? = some (some group)

lemma grouped_concat : Grouped (groups ++ [last]) ↔
    Grouped groups ∧ ∀ group, last = some group → some group ∈ groups →
      groups.getLast? = some (some group) := by
  constructor
  · intro grouped
    refine ⟨fun i j k group first second found there => ?_, ?_⟩
    · have inside := (List.getElem?_eq_some_iff.mp there).1
      have here := grouped i j k group first second
      rw [List.getElem?_append_left (by omega), List.getElem?_append_left inside,
        List.getElem?_append_left (by omega)] at here
      exact here found there
    · rintro group rfl mem
      obtain ⟨i, inside, found⟩ := List.getElem_of_mem mem
      have here := grouped i (groups.length - 1) groups.length group (by omega) (by omega)
      rw [List.getElem?_concat_length, List.getElem?_append_left inside,
        List.getElem?_append_left (by omega), List.getElem?_eq_getElem inside, found] at here
      rw [List.getLast?_eq_getElem?]
      exact here rfl rfl
  · rintro ⟨grouped, returns⟩ i j k group first second found there
    obtain ⟨inside, _⟩ := List.getElem?_eq_some_iff.mp there
    rw [List.length_append, List.length_singleton] at inside
    rcases lt_or_ge k groups.length with within | final
    · rw [List.getElem?_append_left (by omega)] at found there ⊢
      exact grouped i j k group first second found there
    · obtain rfl : k = groups.length := by omega
      rcases Nat.lt_or_eq_of_le second with before | rfl
      · rw [List.getElem?_append_left (by omega)] at found ⊢
        rw [List.getElem?_concat_length] at there
        have ends := returns group (Option.some.inj there) (List.mem_of_getElem? found)
        rw [List.getLast?_eq_getElem?] at ends
        exact grouped i j _ group first (by omega) found ends
      · exact there

/-- The groups that are not the one of the last entry. -/
def endedGroups [DecidableEq κ] (groups : List (Option κ)) : List κ :=
  groups.reduceOption.dedup.filter fun group => groups.getLast? ≠ some (some group)

lemma mem_endedGroups [DecidableEq κ] : group ∈ endedGroups groups ↔
    some group ∈ groups ∧ groups.getLast? ≠ some (some group) := by
  simp [endedGroups, List.mem_filter, List.mem_dedup, List.reduceOption]

end Grouped

def Counted (entries : List NormalizedEntry) : Prop :=
  entries.map (fun entry => entry.serial.bind Decimal.parse) =
    (List.range entries.length).map fun index => some (index + 1)

lemma counted_concat : Counted (entries ++ [entry]) ↔
    Counted entries ∧ entry.serial.bind Decimal.parse = some (entries.length + 1) := by
  simp [Counted, List.range_succ]

/-- The serials are on no entry, or count the entries. -/
def Numbered (entries : List NormalizedEntry) : Prop :=
  (∀ entry ∈ entries, entry.serial = none) ∨ Counted entries

/-- Whether the entries so far have serials, as the last one has it. -/
def serialMode (entries : List NormalizedEntry) : Option Bool :=
  entries.getLast?.map fun entry => entry.serial.isSome

lemma numbered_concat : Numbered (entries ++ [entry]) ↔ Numbered entries ∧
    ¬ (serialMode entries).any (· != entry.serial.isSome) ∧
    ¬ entry.serial.any fun serial => Decimal.parse serial ≠ some (entries.length + 1) := by
  simp only [Numbered, counted_concat, List.forall_mem_append, List.forall_mem_singleton, serialMode]
  rcases List.eq_nil_or_concat entries with rfl | ⟨front, last, rfl⟩
  · cases entry.serial <;> simp [Counted]
  · rw [List.concat_eq_append, List.getLast?_concat, counted_concat]
    cases entry.serial <;> cases kind : last.serial <;> simp [kind]

/-- The group of an entry; an empty id stands for none. -/
def NormalizedEntry.group (entry : NormalizedEntry) : Option Text :=
  if entry.groupId = some [] then none else entry.groupId

namespace SequenceValidator
variable {validator after : SequenceValidator} {index : Nat}

/-- `accept` on the entries in order, each with its index. -/
def acceptAll (limits : CodecLimits) (entries : List NormalizedEntry) :
    Except CodecError SequenceValidator :=
  entries.zipIdx.foldlM (fun validator placed => validator.accept limits placed.1 placed.2) initial

lemma acceptAll_concat : acceptAll limits (entries ++ [entry]) =
    (acceptAll limits entries).bind fun validator => validator.accept limits entry entries.length := by
  rw [acceptAll, List.zipIdx_append, List.foldlM_append]
  simp only [List.zipIdx_singleton, Nat.zero_add, List.foldlM_cons, List.foldlM_nil, bind_pure]
  rfl

def seen (validator : SequenceValidator) : List Text :=
  validator.closedGroups ++ validator.activeGroup.toList

/-- The state behind an entry that is accepted. -/
def next (validator : SequenceValidator) (entry : NormalizedEntry) : SequenceValidator :=
  if entry.group ≠ none ∧ validator.activeGroup = entry.group then
    { validator with serialMode := some entry.serial.isSome }
  else ⟨some entry.serial.isSome, entry.group, validator.seen⟩

lemma length_closedGroups_next (validator : SequenceValidator) (entry : NormalizedEntry) :
    validator.closedGroups.length ≤ (validator.next entry).closedGroups.length := by
  rw [next]
  split
  · exact le_rfl
  · simp [seen]

lemma closeActiveGroup_ok_iff {mode : Option Bool} {active : Option Text} {closed : List Text}
    (few : closed.length ≤ limits.maxGroupCount) :
    closeActiveGroup limits ⟨mode, active, closed⟩ = .ok after ↔
      (closed ++ active.toList).length ≤ limits.maxGroupCount ∧
        after = ⟨mode, none, closed ++ active.toList⟩ := by
  rw [closeActiveGroup, List.length_append]
  cases active with
  | none => simp [few, eq_comm]
  | some group =>
    dsimp only [Option.toList, List.length_singleton]
    split
    · exact iff_of_false nofun (by omega)
    · exact ⟨fun same => ⟨by omega, (Except.ok.inj same).symm⟩, fun both => by rw [both.2]⟩

lemma acceptSerial_ok_iff : validator.acceptSerial entry.serial index = .ok after ↔
    ¬ validator.serialMode.any (· != entry.serial.isSome) ∧
      ¬ entry.serial.any (fun serial => Decimal.parse serial ≠ some (index + 1)) ∧
      after = { validator with serialMode := some entry.serial.isSome } := by
  rw [acceptSerial]
  split
  · next differs => exact iff_of_false nofun fun both => both.1 differs
  · next agrees =>
    split
    · next wrong => exact iff_of_false nofun fun both => both.2.1 wrong
    · next right =>
      exact ⟨fun same => ⟨agrees, right, (Except.ok.inj same).symm⟩, fun both => by rw [both.2.2]⟩

lemma accept_ok_iff (few : validator.closedGroups.length ≤ limits.maxGroupCount) :
    validator.accept limits entry index = .ok after ↔
      ¬ validator.serialMode.any (· != entry.serial.isSome) ∧
      ¬ entry.serial.any (fun serial => Decimal.parse serial ≠ some (index + 1)) ∧
      (∀ group, entry.group = some group →
        validator.activeGroup = some group ∨ group ∉ validator.closedGroups) ∧
      (validator.next entry).closedGroups.length ≤ limits.maxGroupCount ∧
      after = validator.next entry := by
  rw [accept, bind_eq_ok]
  simp only [acceptSerial_ok_iff, and_assoc, exists_and_left, exists_eq_left]
  refine and_congr_right' (and_congr_right' ?_)
  obtain ⟨mode, active, closed⟩ := validator
  rw [next, NormalizedEntry.group]
  dsimp only [seen] at few ⊢
  rcases entry.groupId with _ | _ | ⟨unit, units⟩
  · simp [closeActiveGroup_ok_iff few]
  · simp [closeActiveGroup_ok_iff few]
  · by_cases same : active = some (unit :: units)
    · simp [same, few, eq_comm]
    · by_cases back : unit :: units ∈ closed
      · simp [same, back]
      · simp [same, back, bind_eq_ok, closeActiveGroup_ok_iff few, and_assoc]
        exact fun _ => eq_comm

/-- What the state says about the entries. -/
structure Follows (validator : SequenceValidator) (entries : List NormalizedEntry) : Prop where
  mode : validator.serialMode = ChangeLog.serialMode entries
  active : validator.activeGroup = (entries.map (·.group)).getLast?.join
  nodup : validator.seen.Nodup
  mem_seen : ∀ group, group ∈ validator.seen ↔ some group ∈ entries.map (·.group)

section Follows
variable (follows : validator.Follows entries)
include follows

lemma Follows.last_iff {group : Text} :
    (entries.map (·.group)).getLast? = some (some group) ↔ validator.activeGroup = some group := by
  rw [follows.active, Option.join_eq_some_iff]

lemma Follows.closed_iff (group : Text) :
    group ∈ validator.closedGroups ↔ group ∈ endedGroups (entries.map (·.group)) := by
  rw [mem_endedGroups, ← follows.mem_seen, seen, List.mem_append, Option.mem_toList, Ne,
    follows.last_iff]
  constructor
  · refine fun closed => ⟨.inl closed, fun active => ?_⟩
    exact (List.nodup_append.mp follows.nodup).2.2 group closed group (by simp [active]) rfl
  · rintro ⟨closed | active, other⟩
    · exact closed
    · exact absurd active other

lemma Follows.length_ended :
    (endedGroups (entries.map (·.group))).length = validator.closedGroups.length := by
  have nodup : (endedGroups (entries.map (·.group))).Nodup := (List.nodup_dedup _).filter _
  have closed : validator.closedGroups.Nodup := follows.nodup.of_append_left
  have same := (List.perm_ext_iff_of_nodup nodup closed).mpr fun group => (follows.closed_iff group).symm
  exact same.length_eq

lemma Follows.next
    (returns : ∀ group, entry.group = some group → some group ∈ entries.map (·.group) →
      (entries.map (·.group)).getLast? = some (some group)) :
    (validator.next entry).Follows (entries ++ [entry]) := by
  have mode : some entry.serial.isSome = ChangeLog.serialMode (entries ++ [entry]) := by
    simp [ChangeLog.serialMode]
  have active : entry.group = ((entries ++ [entry]).map (·.group)).getLast?.join := by simp
  rw [SequenceValidator.next]
  split
  · next same =>
    refine ⟨mode, same.2.trans active, follows.nodup, fun group => ?_⟩
    rw [List.map_append, List.mem_append, ← follows.mem_seen]
    refine ⟨.inl, ?_⟩
    rintro (before | here)
    · exact before
    · refine List.mem_append_right _ ?_
      simpa [same.2, eq_comm] using here
  · next other =>
    refine ⟨mode, active, ?_, fun group => ?_⟩
    · refine List.nodup_append.mpr ⟨follows.nodup, by cases entry.group <;> simp, ?_⟩
      rintro group before _ here rfl
      have here : entry.group = some group := Option.mem_toList.mp here
      have last := returns group here ((follows.mem_seen group).mp before)
      exact other ⟨by simp [here], (follows.last_iff.mp last).trans here.symm⟩
    · rw [seen, List.mem_append, follows.mem_seen, List.map_append, List.mem_append]
      simp [eq_comm]

end Follows

def behind (entries : List NormalizedEntry) : SequenceValidator := entries.foldl next initial

lemma behind_concat : behind (entries ++ [entry]) = (behind entries).next entry := by
  rw [behind, List.foldl_append]
  rfl

lemma follows_behind (grouped : Grouped (entries.map (·.group))) : (behind entries).Follows entries := by
  induction entries using List.reverseRecOn with
  | nil => exact ⟨rfl, rfl, List.nodup_nil, by simp [behind, initial, seen]⟩
  | append_singleton front last ih =>
    rw [List.map_append] at grouped
    obtain ⟨before, returns⟩ := grouped_concat.mp grouped
    rw [behind_concat]
    exact (ih before).next returns

/-- A sequence is accepted when it is numbered throughout or not at all, no group comes back, and
not too many groups have ended. -/
theorem acceptAll_iff (limits : CodecLimits) (entries : List NormalizedEntry) :
    (∃ validator, acceptAll limits entries = .ok validator) ↔
      Numbered entries ∧ Grouped (entries.map (·.group)) ∧
        (endedGroups (entries.map (·.group))).length ≤ limits.maxGroupCount := by
  have behindOf (validator : SequenceValidator) : acceptAll limits entries = .ok validator ↔
      (Numbered entries ∧ Grouped (entries.map (·.group)) ∧
        (behind entries).closedGroups.length ≤ limits.maxGroupCount) ∧ validator = behind entries := by
    induction entries using List.reverseRecOn generalizing validator with
    | nil => simp [acceptAll, behind, initial, Numbered, Grouped, pure, Except.pure, eq_comm]
    | append_singleton front last ih =>
      rw [acceptAll_concat, behind_concat, numbered_concat, List.map_append, List.map_singleton,
        grouped_concat]
      refine bind_eq_ok.trans ⟨?_, ?_⟩
      · rintro ⟨before, first, went⟩
        obtain ⟨⟨numbered, grouped, few⟩, rfl⟩ := (ih before).mp first
        have follows := follows_behind grouped
        obtain ⟨agrees, right, fresh, fits, rfl⟩ := (accept_ok_iff few).mp went
        rw [follows.mode] at agrees
        refine ⟨⟨⟨numbered, agrees, right⟩, ⟨grouped, fun group here mem => ?_⟩, fits⟩, rfl⟩
        rcases fresh group here with active | fresh
        · exact follows.last_iff.mpr active
        · by_contra ended
          exact fresh ((follows.closed_iff group).mpr (mem_endedGroups.mpr ⟨mem, ended⟩))
      · rintro ⟨⟨⟨numbered, agrees, right⟩, ⟨grouped, returns⟩, fits⟩, rfl⟩
        have follows := follows_behind grouped
        have few := (length_closedGroups_next (behind front) last).trans fits
        refine ⟨_, (ih _).mpr ⟨⟨numbered, grouped, few⟩, rfl⟩, (accept_ok_iff few).mpr ?_⟩
        rw [follows.mode]
        refine ⟨agrees, right, fun group here => ?_, fits, rfl⟩
        by_cases mem : some group ∈ front.map (·.group)
        · exact .inl (follows.last_iff.mp (returns group here mem))
        · refine .inr fun closed => mem ((follows.mem_seen group).mp ?_)
          exact List.mem_append_left _ closed
  simp only [behindOf, exists_and_left, exists_eq, and_true]
  refine and_congr_right' (and_congr_right fun grouped => ?_)
  rw [(follows_behind grouped).length_ended]

end SequenceValidator

end OmegaEdit.ChangeLog
