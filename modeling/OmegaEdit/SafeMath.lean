import Mathlib.Tactic.Common

/-! Checked 64-bit arithmetic. Offsets, lengths and serials are integers; the
bounds of `int64_t` appear where the code tests them. -/
namespace OmegaEdit

def int64Max : Int := 9223372036854775807

def int64Min : Int := -9223372036854775808

def addOverflows (lhs rhs : Int) : Bool :=
  (decide (rhs > 0) && decide (lhs > int64Max - rhs)) ||
    (decide (rhs < 0) && decide (lhs < int64Min - rhs))

def safeAdd (lhs rhs : Int) : Option Int :=
  if addOverflows lhs rhs then none else some (lhs + rhs)

def validNonnegativeRange (offset length : Int) : Bool :=
  decide (0 ≤ offset) && decide (0 ≤ length) && (safeAdd offset length).isSome

lemma addOverflows_eq_false_iff {lhs rhs : Int} :
    addOverflows lhs rhs = false ↔
      (0 < rhs → lhs + rhs ≤ int64Max) ∧ (rhs < 0 → int64Min ≤ lhs + rhs) := by
  simp only [addOverflows, Bool.or_eq_false_iff, Bool.and_eq_false_iff, decide_eq_false_iff_not]
  omega

lemma safeAdd_eq_some_iff {lhs rhs sum : Int} :
    safeAdd lhs rhs = some sum ↔
      sum = lhs + rhs ∧ (0 < rhs → lhs + rhs ≤ int64Max) ∧ (rhs < 0 → int64Min ≤ lhs + rhs) := by
  unfold safeAdd
  by_cases overflow : addOverflows lhs rhs = false
  · have bounds := addOverflows_eq_false_iff.mp overflow
    simp only [overflow, Bool.false_eq_true, if_false, Option.some.injEq]
    constructor
    · rintro rfl
      exact ⟨rfl, bounds⟩
    · rintro ⟨rfl, -⟩
      rfl
  · have exceeds := mt addOverflows_eq_false_iff.mpr overflow
    simp only [Bool.not_eq_false] at overflow
    simp only [overflow, if_true, reduceCtorEq, false_iff]
    exact fun ⟨_, bounds⟩ => exceeds bounds

lemma safeAdd_eq_none_iff {lhs rhs : Int} :
    safeAdd lhs rhs = none ↔
      (0 < rhs ∧ int64Max < lhs + rhs) ∨ (rhs < 0 ∧ lhs + rhs < int64Min) := by
  have exact_sum := @safeAdd_eq_some_iff lhs rhs (lhs + rhs)
  cases sum : safeAdd lhs rhs with
  | none =>
    rw [sum] at exact_sum
    simp only [reduceCtorEq, false_iff, true_and] at exact_sum
    simp only [true_iff]
    omega
  | some value =>
    have bounds := (safeAdd_eq_some_iff.mp sum).2
    simp only [reduceCtorEq, false_iff]
    omega

/-- An addition whose result is a value of `int64_t` on the right side of zero succeeds. -/
lemma safeAdd_of_le {lhs rhs : Int} (nonneg : 0 ≤ rhs) (small : lhs + rhs ≤ int64Max) :
    safeAdd lhs rhs = some (lhs + rhs) :=
  safeAdd_eq_some_iff.mpr ⟨rfl, fun _ => small, fun negative => by omega⟩

lemma safeAdd_neg_of_le {lhs rhs : Int} (nonpos : rhs ≤ 0) (nonneg : 0 ≤ lhs + rhs) :
    safeAdd lhs rhs = some (lhs + rhs) :=
  safeAdd_eq_some_iff.mpr ⟨rfl, fun positive => by omega, fun _ => by unfold int64Min; omega⟩

lemma validNonnegativeRange_iff {offset length : Int} :
    validNonnegativeRange offset length = true ↔
      0 ≤ offset ∧ 0 ≤ length ∧ (0 < length → offset + length ≤ int64Max) := by
  simp only [validNonnegativeRange, Bool.and_eq_true, decide_eq_true_eq, Option.isSome_iff_exists,
    safeAdd_eq_some_iff]
  constructor
  · rintro ⟨⟨nonneg, lengthNonneg⟩, sum, -, small, -⟩
    exact ⟨nonneg, lengthNonneg, small⟩
  · rintro ⟨nonneg, lengthNonneg, small⟩
    exact ⟨⟨nonneg, lengthNonneg⟩, _, rfl, small, fun negative => by omega⟩

end OmegaEdit
