import OmegaEdit.Change

/-! The shifts of a buffer by less than a byte. They work in place, so that each round may read only
bytes that no earlier round has written. -/
namespace OmegaEdit
variable {buffer : List Byte} {shift place : Nat}

/-- A loop that writes the bytes of a buffer in this order. -/
def inPlace (write : List Byte → Nat → Byte) (order : List Nat) (buffer : List Byte) : List Byte :=
  order.foldl (fun buffer index => buffer.set index (write buffer index)) buffer

/-- What a round of the right shift writes. -/
def rightShiftedByte (shift : Nat) (buffer : List Byte) (index : Nat) : Byte :=
  UInt8.ofNat ((if index > 0 then (buffer.getD (index - 1) 0).toNat <<< (8 - shift) else 0) |||
    (buffer.getD index 0).toNat >>> shift)

/-- `omega_util_right_shift_buffer`: the return code and the buffer. The loop runs downwards. -/
def rightShiftBuffer (buffer : List Byte) (shiftRight : Nat) (fillBit : Int) : Int × List Byte :=
  if shiftRight = 0 ∨ shiftRight ≥ 8 then (-1, buffer)
  else if fillBit ≠ 0 ∧ fillBit ≠ 1 then (-2, buffer)
  else
    let shifted := inPlace (rightShiftedByte shiftRight) (List.range buffer.length).reverse buffer
    let mask := if fillBit ≠ 0 then 0xFF <<< (8 - shiftRight) else 0
    (0, shifted.set 0 (UInt8.ofNat ((shifted.getD 0 0).toNat ||| mask)))

def leftShiftedByte (shift : Nat) (buffer : List Byte) (index : Nat) : Byte :=
  UInt8.ofNat ((if index < buffer.length - 1 then (buffer.getD (index + 1) 0).toNat >>> (8 - shift)
    else 0) ||| (buffer.getD index 0).toNat <<< shift)

/-- `omega_util_left_shift_buffer`; the loop runs upwards. -/
def leftShiftBuffer (buffer : List Byte) (shiftLeft : Nat) (fillBit : Int) : Int × List Byte :=
  if shiftLeft = 0 ∨ shiftLeft ≥ 8 then (-1, buffer)
  else if fillBit ≠ 0 ∧ fillBit ≠ 1 then (-2, buffer)
  else
    let shifted := inPlace (leftShiftedByte shiftLeft) (List.range buffer.length) buffer
    let mask := if fillBit ≠ 0 then 0xFF >>> (8 - shiftLeft) else 0
    let last := buffer.length - 1
    (0, shifted.set last (UInt8.ofNat ((shifted.getD last 0).toNat ||| mask)))

/-- A bit of the buffer as one big-endian bit string. -/
def bufferBit (buffer : List Byte) (place : Nat) : Bool :=
  (buffer.getD (place / 8) 0).toNat.testBit (7 - place % 8)

lemma testBit_ofNat (value : Nat) (inside : place < 8) :
    (UInt8.ofNat value).toNat.testBit place = value.testBit place := by
  rw [UInt8.toNat_ofNat', Nat.testBit_mod_two_pow, decide_eq_true inside, Bool.true_and]

lemma testBit_byte (byte : Byte) (outside : 8 ≤ place) : byte.toNat.testBit place = false :=
  Nat.testBit_lt_two_pow
    (lt_of_lt_of_le byte.toNat_lt (Nat.pow_le_pow_right Nat.two_pos outside))

lemma getD_set (byte : Byte) {index : Nat} (inside : index < buffer.length) :
    (buffer.set index byte).getD place 0 = if index = place then byte else buffer.getD place 0 := by
  rw [List.getD_eq_getElem?_getD, List.getD_eq_getElem?_getD, List.getElem?_set]
  split <;> rfl

lemma length_inPlace (write : List Byte → Nat → Byte) (order : List Nat) :
    (inPlace write order buffer).length = buffer.length := by
  induction order generalizing buffer with
  | nil => rfl
  | cons index rest ih => exact ih.trans (List.length_set ..)

/-- When no round reads what an earlier one has written, all of them read the start. -/
lemma getD_inPlace {write : List Byte → Nat → Byte} {order : List Nat}
    (inside : ∀ index ∈ order, index < buffer.length)
    (apart : order.Pairwise fun earlier later =>
      ∀ buffer byte, write (buffer.set earlier byte) later = write buffer later) :
    (inPlace write order buffer).getD place 0 =
      if place ∈ order then write buffer place else buffer.getD place 0 := by
  induction order generalizing buffer with
  | nil => rfl
  | cons index rest ih =>
    obtain ⟨unread, apart⟩ := List.pairwise_cons.mp apart
    obtain ⟨here, inside⟩ := List.forall_mem_cons.mp inside
    refine (ih (by simpa using inside) apart).trans ?_
    rw [getD_set _ here]
    by_cases later : place ∈ rest
    · rw [if_pos later, if_pos (List.mem_cons_of_mem _ later), unread place later]
    · by_cases same : index = place
      · rw [if_neg later, if_pos same, same, if_pos List.mem_cons_self]
      · simp [later, same, Ne.symm same]

lemma bufferBit_masked {mask index : Nat} (inside : index < buffer.length) :
    bufferBit (buffer.set index (UInt8.ofNat ((buffer.getD index 0).toNat ||| mask))) place =
      (bufferBit buffer place || (decide (index = place / 8) && mask.testBit (7 - place % 8))) := by
  rw [bufferBit, getD_set _ inside, bufferBit]
  split
  · next same => rw [testBit_ofNat _ (by omega), Nat.testBit_or, same, decide_eq_true rfl, Bool.true_and]
  · next other => rw [decide_eq_false other, Bool.false_and, Bool.or_false]

lemma testBit_fill (fill : Bool) (mask place : Nat) :
    (if fill.toInt ≠ 0 then mask else 0).testBit place = (fill && mask.testBit place) := by
  cases fill <;> simp

section Bits
variable (within : place / 8 < buffer.length) (small : shift < 8)
include within small

lemma bufferBit_rightShift :
    bufferBit (inPlace (rightShiftedByte shift) (List.range buffer.length).reverse buffer) place =
      (decide (shift ≤ place) && bufferBit buffer (place - shift)) := by
  have apart : (List.range buffer.length).reverse.Pairwise fun earlier later => ∀ buffer byte,
      rightShiftedByte shift (buffer.set earlier byte) later = rightShiftedByte shift buffer later := by
    refine (List.pairwise_reverse.mpr List.pairwise_lt_range).imp ?_
    intro earlier later before buffer byte
    simp only [rightShiftedByte, List.getD_eq_getElem?_getD]
    rw [List.getElem?_set_ne (by omega), List.getElem?_set_ne (by omega)]
  rw [bufferBit, getD_inPlace (by simp) apart, if_pos (by simpa using within), rightShiftedByte,
    testBit_ofNat _ (by omega), Nat.testBit_or, Nat.testBit_shiftRight, bufferBit]
  by_cases crosses : place % 8 < shift
  · rw [testBit_byte _ (by omega), Bool.or_false]
    by_cases first : place / 8 = 0
    · rw [if_neg (by omega), decide_eq_false (by omega), Bool.false_and, Nat.zero_testBit]
    · rw [if_pos (by omega), decide_eq_true (by omega), Nat.testBit_shiftLeft,
        decide_eq_true (by omega), show (place - shift) / 8 = place / 8 - 1 by omega]
      congr 2
      omega
  · have high : (if place / 8 > 0 then (buffer.getD (place / 8 - 1) 0).toNat <<< (8 - shift)
        else 0).testBit (7 - place % 8) = false := by
      split
      · rw [Nat.testBit_shiftLeft, decide_eq_false (by omega), Bool.false_and]
      · exact Nat.zero_testBit _
    rw [high, Bool.false_or, decide_eq_true (by omega), Bool.true_and,
      show (place - shift) / 8 = place / 8 by omega]
    congr 1
    omega

lemma bufferBit_leftShift :
    bufferBit (inPlace (leftShiftedByte shift) (List.range buffer.length) buffer) place =
      (decide (place + shift < 8 * buffer.length) && bufferBit buffer (place + shift)) := by
  have apart : (List.range buffer.length).Pairwise fun earlier later => ∀ buffer byte,
      leftShiftedByte shift (buffer.set earlier byte) later = leftShiftedByte shift buffer later := by
    refine List.pairwise_lt_range.imp ?_
    intro earlier later before buffer byte
    simp only [leftShiftedByte, List.getD_eq_getElem?_getD, List.length_set]
    rw [List.getElem?_set_ne (by omega), List.getElem?_set_ne (by omega)]
  rw [bufferBit, getD_inPlace (by simp) apart, if_pos (by simpa using within), leftShiftedByte,
    testBit_ofNat _ (by omega), Nat.testBit_or, Nat.testBit_shiftLeft, bufferBit]
  by_cases crosses : 8 ≤ place % 8 + shift
  · rw [decide_eq_false (by omega), Bool.false_and, Bool.or_false]
    by_cases final : place / 8 < buffer.length - 1
    · rw [if_pos final, decide_eq_true (by omega), Nat.testBit_shiftRight,
        show (place + shift) / 8 = place / 8 + 1 by omega]
      congr 2
      omega
    · rw [if_neg final, decide_eq_false (by omega), Bool.false_and, Nat.zero_testBit]
  · have low : (if place / 8 < buffer.length - 1 then
        (buffer.getD (place / 8 + 1) 0).toNat >>> (8 - shift) else 0).testBit (7 - place % 8) =
        false := by
      split
      · rw [Nat.testBit_shiftRight, testBit_byte _ (by omega)]
      · exact Nat.zero_testBit _
    rw [low, Bool.false_or, decide_eq_true (by omega), decide_eq_true (by omega), Bool.true_and,
      Bool.true_and, show (place + shift) / 8 = place / 8 by omega]
    congr 1
    omega

end Bits

section Shifts
variable (nonempty : 1 ≤ buffer.length) (least : 1 ≤ shift) (most : shift ≤ 7) (fill : Bool)
include nonempty least most

lemma rightShiftBuffer_spec : ∃ shifted, rightShiftBuffer buffer shift fill.toInt = (0, shifted) ∧
    shifted.length = buffer.length ∧ ∀ place, place < 8 * buffer.length →
      bufferBit shifted place = if shift ≤ place then bufferBit buffer (place - shift) else fill := by
  rw [rightShiftBuffer, if_neg (by omega), if_neg (by cases fill <;> decide)]
  refine ⟨_, rfl, by rw [List.length_set, length_inPlace], fun place within => ?_⟩
  rw [bufferBit_masked (by rwa [length_inPlace]), bufferBit_rightShift (by omega) (by omega)]
  rw [testBit_fill, Nat.testBit_shiftLeft, Nat.testBit_two_pow_sub_one 8]
  by_cases moved : shift ≤ place
  · rw [if_pos moved, decide_eq_true moved, Bool.true_and]
    by_cases first : 0 = place / 8
    · rw [decide_eq_false (by omega : ¬ 7 - place % 8 ≥ 8 - shift)]
      simp
    · simp [first]
  · rw [if_neg moved, decide_eq_false moved, decide_eq_true (by omega), decide_eq_true (by omega),
      decide_eq_true (by omega)]
    simp

lemma leftShiftBuffer_spec : ∃ shifted, leftShiftBuffer buffer shift fill.toInt = (0, shifted) ∧
    shifted.length = buffer.length ∧ ∀ place, place < 8 * buffer.length → bufferBit shifted place =
        if place + shift < 8 * buffer.length then bufferBit buffer (place + shift) else fill := by
  rw [leftShiftBuffer, if_neg (by omega), if_neg (by cases fill <;> decide)]
  refine ⟨_, rfl, by rw [List.length_set, length_inPlace], fun place within => ?_⟩
  rw [bufferBit_masked (by rw [length_inPlace]; omega), bufferBit_leftShift (by omega) (by omega)]
  rw [testBit_fill, Nat.testBit_shiftRight, Nat.testBit_two_pow_sub_one 8]
  by_cases moved : place + shift < 8 * buffer.length
  · rw [if_pos moved, decide_eq_true moved, Bool.true_and]
    by_cases last : buffer.length - 1 = place / 8
    · rw [decide_eq_false (by omega : ¬ 8 - shift + (7 - place % 8) < 8)]
      simp
    · simp [last]
  · rw [if_neg moved, decide_eq_false moved, decide_eq_true (by omega), decide_eq_true (by omega)]
    simp

end Shifts

/-- The shifts move the bit string of the buffer and fill what becomes vacant; a left shift and then a
right one give back all bits that were not shifted out. -/
theorem shift_buffer_moves (buffer : List Byte) (nonempty : 1 ≤ buffer.length) (shift : Nat)
    (least : 1 ≤ shift) (most : shift ≤ 7) (left right : Bool) :
    ∃ shiftedLeft shiftedRight restored,
      leftShiftBuffer buffer shift left.toInt = (0, shiftedLeft) ∧
      rightShiftBuffer buffer shift right.toInt = (0, shiftedRight) ∧
      rightShiftBuffer shiftedLeft shift right.toInt = (0, restored) ∧
      shiftedLeft.length = buffer.length ∧ shiftedRight.length = buffer.length ∧
      restored.length = buffer.length ∧ ∀ place, place < 8 * buffer.length →
        bufferBit shiftedLeft place =
          (if place + shift < 8 * buffer.length then bufferBit buffer (place + shift) else left) ∧
        bufferBit shiftedRight place =
          (if shift ≤ place then bufferBit buffer (place - shift) else right) ∧
        bufferBit restored place = if shift ≤ place then bufferBit buffer place else right := by
  obtain ⟨shiftedLeft, leftward, leftLength, leftBits⟩ :=
    leftShiftBuffer_spec nonempty least most left
  obtain ⟨shiftedRight, rightward, rightLength, rightBits⟩ :=
    rightShiftBuffer_spec nonempty least most right
  obtain ⟨restored, back, backLength, backBits⟩ :=
    rightShiftBuffer_spec (leftLength ▸ nonempty) least most right
  rw [leftLength] at backLength backBits
  refine ⟨shiftedLeft, shiftedRight, restored, leftward, rightward, back, leftLength, rightLength,
    backLength, fun place within => ⟨leftBits place within, rightBits place within, ?_⟩⟩
  rw [backBits place within]
  split
  · next moved =>
    rw [leftBits _ (by omega), Nat.sub_add_cancel moved, if_pos within]
  · rfl

theorem shift_buffer_moves_two : 1 ≤ [(0x81 : Byte), 0x01].length ∧
    ∃ shiftedLeft, leftShiftBuffer [0x81, 0x01] 4 1 = (0, shiftedLeft) ∧
      shiftedLeft.length = 2 ∧ shiftedLeft = [0x10, 0x1F] := by
  obtain ⟨shiftedLeft, _, _, shifted, _, _, length, _⟩ :=
    shift_buffer_moves [0x81, 0x01] (by decide) 4 (by decide) (by decide) true false
  refine ⟨by decide, shiftedLeft, shifted, length, ?_⟩
  exact (congrArg Prod.snd shifted).symm.trans (by decide)

end OmegaEdit
