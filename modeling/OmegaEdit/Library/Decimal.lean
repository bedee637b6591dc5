import Mathlib.Data.List.Induction
import Mathlib.Tactic.IntervalCases
import OmegaEdit.Library.Utf16

/-! Unsigned numbers in decimal without leading zeros. Every number has exactly
one such text, and the two directions are inverse to each other. -/
namespace Decimal
open Utf16

def isDigit (unit : CodeUnit) : Bool := 48 ≤ unit && unit ≤ 57

def digit (value : Nat) : CodeUnit := UInt16.ofNat (48 + value)

def digitValue (unit : CodeUnit) : Nat := unit.toNat - 48

/-- The digits of the number in front of those already written. -/
def renderDigits : Nat → Nat → Text → Text
  | 0, _, written => written
  | fuel + 1, value, written =>
    if value < 10 then digit value :: written
    else renderDigits fuel (value / 10) (digit (value % 10) :: written)

def render (value : Nat) : Text := renderDigits (value + 1) value []

/-- The number a digit sequence denotes. -/
def valueOf (text : Text) : Nat :=
  text.foldl (fun value unit => 10 * value + digitValue unit) 0

/-- A single zero, or digits that do not start with zero. -/
def isCanonical : Text → Bool
  | [] => false
  | first :: rest => isDigit first && rest.all isDigit && (first != 48 || rest.isEmpty)

def parse (text : Text) : Option Nat :=
  if isCanonical text then some (valueOf text) else none

lemma isDigit_digit {value : Nat} (small : value < 10) : isDigit (digit value) = true := by
  interval_cases value <;> decide

lemma digitValue_digit {value : Nat} (small : value < 10) : digitValue (digit value) = value := by
  interval_cases value <;> decide

lemma digit_digitValue {unit : CodeUnit} (isDig : isDigit unit = true) :
    digit (digitValue unit) = unit := by
  simp only [isDigit, Bool.and_eq_true, decide_eq_true_eq, UInt16.le_iff_toNat_le] at isDig
  have low : 48 ≤ unit.toNat := isDig.1
  apply UInt16.toNat_inj.mp
  simp only [digit, digitValue, UInt16.toNat_ofNat']
  have := unit.toNat_lt
  omega

lemma digitValue_lt {unit : CodeUnit} (isDig : isDigit unit = true) : digitValue unit < 10 := by
  simp only [isDigit, Bool.and_eq_true, decide_eq_true_eq, UInt16.le_iff_toNat_le] at isDig
  have high : unit.toNat ≤ 57 := isDig.2
  simp only [digitValue]
  omega

lemma digitValue_eq_zero {unit : CodeUnit} (isDig : isDigit unit = true) :
    digitValue unit = 0 ↔ unit = 48 := by
  constructor
  · intro zero
    have := digit_digitValue isDig
    rw [zero] at this
    exact this.symm
  · rintro rfl
    rfl

lemma renderDigits_fuel {fuel more value : Nat} (written : Text) (enough : value < fuel)
    (moreEnough : value < more) :
    renderDigits fuel value written = renderDigits more value written := by
  induction fuel generalizing more value written with
  | zero => omega
  | succ fuel ih =>
    cases more with
    | zero => omega
    | succ more =>
      simp only [renderDigits]
      split
      · rfl
      · exact ih _ (by omega) (by omega)

lemma renderDigits_append (fuel value : Nat) (written : Text) :
    renderDigits fuel value written = renderDigits fuel value [] ++ written := by
  induction fuel generalizing value written with
  | zero => rfl
  | succ fuel ih =>
    simp only [renderDigits]
    split
    · rfl
    · rw [ih, ih _ [_], List.append_assoc, List.singleton_append]

lemma render_of_lt {value : Nat} (small : value < 10) : render value = [digit value] := by
  simp [render, renderDigits, small]

/-- The last digit is the remainder, the others write the quotient. -/
lemma render_step {value : Nat} (large : ¬ value < 10) :
    render value = render (value / 10) ++ [digit (value % 10)] := by
  have unfolded : render value = renderDigits value (value / 10) [digit (value % 10)] := by
    simp [render, renderDigits, large]
  rw [unfolded, renderDigits_append, render]
  congr 1
  exact renderDigits_fuel [] (by omega) (by omega)

lemma valueOf_append_singleton (text : Text) (unit : CodeUnit) :
    valueOf (text ++ [unit]) = 10 * valueOf text + digitValue unit := by
  simp [valueOf]

lemma valueOf_render (value : Nat) : valueOf (render value) = value := by
  induction value using Nat.strong_induction_on with
  | _ value ih =>
    by_cases small : value < 10
    · rw [render_of_lt small]
      simpa [valueOf] using digitValue_digit small
    · rw [render_step small, valueOf_append_singleton, ih _ (by omega), digitValue_digit (by omega)]
      omega

lemma isCanonical_append_singleton {text : Text} {unit : CodeUnit} (canonical : isCanonical text)
    (positive : text ≠ [48]) (isDig : isDigit unit = true) : isCanonical (text ++ [unit]) = true := by
  cases text with
  | nil => simp [isCanonical] at canonical
  | cons first rest =>
    simp only [isCanonical, Bool.and_eq_true, Bool.or_eq_true, bne_iff_ne, ne_eq,
      List.isEmpty_iff, List.cons_append, List.all_append, List.all_cons, List.all_nil,
      Bool.and_true] at canonical ⊢
    obtain ⟨⟨firstDigit, restDigits⟩, leading⟩ := canonical
    refine ⟨⟨firstDigit, restDigits, isDig⟩, Or.inl ?_⟩
    rintro rfl
    rcases leading with leading | rfl
    · exact leading rfl
    · exact positive rfl

lemma render_ne_zero_text {value : Nat} (positive : 0 < value) : render value ≠ [48] := by
  intro same
  have := valueOf_render value
  rw [same] at this
  have zero : valueOf [48] = 0 := by decide
  omega

lemma isCanonical_render (value : Nat) : isCanonical (render value) = true := by
  induction value using Nat.strong_induction_on with
  | _ value ih =>
    by_cases small : value < 10
    · rw [render_of_lt small]
      simp [isCanonical, isDigit_digit small]
    · rw [render_step small]
      exact isCanonical_append_singleton (ih _ (by omega)) (render_ne_zero_text (by omega))
        (isDigit_digit (by omega))

/-- What is written is read back. -/
theorem parse_render (value : Nat) : parse (render value) = some value := by
  rw [parse, if_pos (isCanonical_render value), valueOf_render]

lemma digits_of_isCanonical {text : Text} (canonical : isCanonical text) :
    ∀ unit ∈ text, isDigit unit = true := by
  cases text with
  | nil => simp
  | cons first rest =>
    simp only [isCanonical, Bool.and_eq_true, List.all_eq_true] at canonical
    intro unit mem
    rcases List.mem_cons.mp mem with rfl | mem
    · exact canonical.1.1
    · exact canonical.1.2 unit mem

lemma valueOf_pos {first : CodeUnit} (rest : Text) (isDig : isDigit first = true)
    (positive : first ≠ 48) : 0 < valueOf (first :: rest) := by
  induction rest using List.reverseRecOn with
  | nil =>
    have := (digitValue_eq_zero isDig).not.mpr positive
    simp only [valueOf, List.foldl_cons, List.foldl_nil]
    omega
  | append_singleton rest unit ih =>
    rw [← List.cons_append, valueOf_append_singleton]
    omega

lemma render_valueOf {text : Text} (canonical : isCanonical text) : render (valueOf text) = text := by
  induction text using List.reverseRecOn with
  | nil => simp [isCanonical] at canonical
  | append_singleton text unit ih =>
    have unitDigit := digits_of_isCanonical canonical unit (by simp)
    have unitLt := digitValue_lt unitDigit
    rw [valueOf_append_singleton]
    cases text with
    | nil =>
      have small : 10 * valueOf [] + digitValue unit = digitValue unit := by simp [valueOf]
      rw [small, render_of_lt unitLt, digit_digitValue unitDigit, List.nil_append]
    | cons first rest =>
      simp only [List.cons_append, isCanonical, Bool.and_eq_true, Bool.or_eq_true, bne_iff_ne, ne_eq,
        List.isEmpty_iff, List.append_eq_nil_iff, List.cons_ne_self, and_false, or_false,
        List.all_append] at canonical
      obtain ⟨⟨firstDigit, restDigits, -⟩, leading⟩ := canonical
      have front : isCanonical (first :: rest) = true := by
        simp [isCanonical, firstDigit, restDigits, leading]
      have positive := valueOf_pos rest firstDigit leading
      rw [render_step (by omega)]
      have quotient : (10 * valueOf (first :: rest) + digitValue unit) / 10 = valueOf (first :: rest) := by
        omega
      have remainder : (10 * valueOf (first :: rest) + digitValue unit) % 10 = digitValue unit := by
        omega
      rw [quotient, remainder, ih front, digit_digitValue unitDigit]

/-- What is read is written back. -/
theorem render_of_parse {text : Text} {value : Nat} (parsed : parse text = some value) :
    render value = text := by
  rw [parse] at parsed
  split at parsed
  · obtain rfl := Option.some.inj parsed
    exact render_valueOf (by assumption)
  · cases parsed

end Decimal
