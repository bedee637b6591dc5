import OmegaEdit.SessionReads

/-! The byte frequency profile of a range. The content is read one buffer after the other, and a
line end may be cut by two buffers. -/
namespace OmegaEdit
open Splice

structure Profile where
  frequency : Byte → Nat
  dosEolCount : Nat
  lastProfiledByte : Byte

def Profile.initial : Profile := ⟨fun _ => 0, 0, 0⟩

def Profile.count (profile : Profile) (byte : Byte) : Profile where
  frequency other := profile.frequency other + if byte = other then 1 else 0
  dosEolCount := profile.dosEolCount + if profile.lastProfiledByte = 13 ∧ byte = 10 then 1 else 0
  lastProfiledByte := byte

/-- The loop over the buffers; the fuel is the length. -/
def profileLoop (model : Model) (capacity : Int) :
    Nat → Int → Int → Profile → Except Fault (Option Profile)
  | 0, _, length, profile => .ok (if length = 0 then some profile else none)
  | fuel + 1, offset, length, profile =>
    if length = 0 then .ok (some profile)
    else do
      match ← getSegment model offset capacity with
      | none => .ok none
      | some data =>
        let part := data.take length.toNat
        match safeAdd offset part.length with
        | none => .ok none
        | some next =>
          profileLoop model capacity fuel next (length - part.length) (part.foldl .count profile)

/-- `omega_session_byte_frequency_profile`. -/
def byteFrequencyProfile (model : Model) (offset length : Int) : Except Fault (Option Profile) :=
  if offset < 0 then .ok none
  else
    let length := if length = 0 then model.computedFileSize - offset else length
    if length < 0 then .ok none
    else match safeAdd offset length with
      | none => .ok none
      | some endOffset =>
        if endOffset > model.computedFileSize then .ok none
        else profileLoop model (min length 65536) length.toNat offset length .initial

/-- What is counted depends on the bytes alone, and on the last one before them. -/
lemma foldl_count (bytes : List Byte) (profile : Profile) :
    let counted := bytes.foldl Profile.count profile
    (∀ byte, counted.frequency byte = profile.frequency byte + bytes.count byte) ∧
      counted.dosEolCount = profile.dosEolCount +
        ((profile.lastProfiledByte :: bytes).zip bytes).count (13, 10) := by
  induction bytes generalizing profile with
  | nil => simp
  | cons first rest ih =>
    obtain ⟨frequency, dosEolCount⟩ := ih (profile.count first)
    constructor
    · intro byte
      rw [List.foldl_cons, frequency, List.count_cons]
      simp only [Profile.count, beq_iff_eq]
      omega
    · rw [List.foldl_cons, dosEolCount, List.zip_cons_cons, List.count_cons]
      simp only [Profile.count, beq_iff_eq, Prod.mk.injEq]
      omega

section Counts
variable {model : Model} {content : List Byte} (denotes : model.HasContent content)
include denotes

/-- Wherever the buffers end, the bytes of the range are counted in their order. -/
lemma profileLoop_eq {capacity offset length : Int} {fuel : Nat} {profile : Profile}
    (room : 0 < length → 0 < capacity) (reached : 0 ≤ offset) (nonneg : 0 ≤ length)
    (inside : offset + length ≤ content.length) (enough : length ≤ fuel) :
    profileLoop model capacity fuel offset length profile =
      .ok (some ((slice content offset.toNat length.toNat).foldl .count profile)) := by
  have small := denotes.length_le
  induction fuel generalizing offset length profile with
  | zero =>
    obtain rfl : length = 0 := by omega
    simp [profileLoop]
  | succ fuel ih =>
    rw [profileLoop]
    by_cases empty : length = 0
    · simp [empty]
    have positive := room (by omega)
    generalize amountEq : min length.toNat capacity.toNat = amount
    have part : (slice content offset.toNat capacity.toNat).take length.toNat =
        slice content offset.toNat amount := by
      rw [slice, List.take_take, amountEq, slice]
    have next : safeAdd offset amount = some (offset + amount) := safeAdd_of_le (by omega) (by omega)
    have behind : (offset + amount).toNat = offset.toNat + amount := by omega
    have left : (length - amount).toNat = length.toNat - amount := by omega
    simp only [if_neg empty, getSegment_eq denotes reached (by omega) (Int.le_of_lt positive), bind,
      Except.bind, part, length_slice_of_le (by omega : offset.toNat + amount ≤ content.length), next]
    rw [ih (fun _ => positive) (by omega) (by omega) (by omega) (by omega), ← List.foldl_append, behind, left,
      ← slice_split content offset.toNat length.toNat amount (by omega)]

/-- A profile is given of the ranges inside the content, and counts their bytes and line ends. -/
theorem byteFrequencyProfile_counts (offset length : Int) :
    let count := if length = 0 then content.length - offset else length
    let bytes := slice content offset.toNat count.toNat
    if 0 ≤ offset ∧ 0 ≤ count ∧ offset + count ≤ content.length then
      ∃ profile, byteFrequencyProfile model offset length = .ok (some profile) ∧
        (∀ byte, profile.frequency byte = bytes.count byte) ∧
        profile.dosEolCount = (bytes.zip bytes.tail).count (13, 10)
    else byteFrequencyProfile model offset length = .ok none := by
  have small := denotes.length_le
  rw [byteFrequencyProfile, computedFileSize_eq denotes]
  dsimp only
  generalize (if length = 0 then (content.length : Int) - offset else length) = count
  generalize bytesEq : slice content offset.toNat count.toNat = bytes
  split
  · next valid =>
    obtain ⟨reached, nonneg, inside⟩ := valid
    obtain ⟨frequency, dosEolCount⟩ := foldl_count bytes .initial
    refine ⟨bytes.foldl .count .initial, ?_, ?_, ?_⟩
    · rw [if_neg (by omega), if_neg (by omega), safeAdd_of_le nonneg (by omega)]
      dsimp only
      rw [if_neg (by omega), ← bytesEq]
      exact profileLoop_eq denotes (by omega) reached nonneg inside (by omega)
    · intro byte
      simpa [Profile.initial] using frequency byte
    · rw [dosEolCount]
      cases bytes with
      | nil => rfl
      | cons first rest => simp [Profile.initial]
  · next invalid =>
    cases sum : safeAdd offset count with
    | none => simp
    | some total =>
      have := safeAdd_eq_some_iff.mp sum
      rw [ite_eq_left_iff]
      intro reached
      rw [ite_eq_left_iff]
      intro nonneg
      exact if_pos (by omega)

end Counts

theorem byteFrequencyProfile_counts_inside : ∃ profile,
    byteFrequencyProfile (createSession (some omegaFile) 0 0).top 1 3 = .ok (some profile) ∧
      profile.frequency 101 = 1 ∧ profile.dosEolCount = 0 := by
  obtain ⟨profile, done, frequency, dosEolCount⟩ :=
    byteFrequencyProfile_counts (createSession_denotes (some omegaFile) 0 0) 1 3
  exact ⟨profile, done, frequency 101, dosEolCount⟩

end OmegaEdit
