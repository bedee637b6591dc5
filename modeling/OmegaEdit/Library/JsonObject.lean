import Mathlib.Data.List.Perm.Basic
import OmegaEdit.Library.Json

/-! Objects as the language keeps them. When no name is repeated, nothing is lost: the
members are those that are written, in another order. -/
namespace Json
open Utf16

/-- The members with their values as the language keeps them. -/
def kept (members : List (Text × Value)) : List (Text × Value) :=
  members.map fun (name, value) => (name, value.collapse)

lemma kept_cons (name : Text) (value : Value) (members : List (Text × Value)) :
    kept ((name, value) :: members) = (name, value.collapse) :: kept members := rfl

lemma kept_names (members : List (Text × Value)) :
    (kept members).map Prod.fst = members.map Prod.fst := by
  rw [kept, List.map_map]
  rfl

lemma lookup_cons_of_ne {name first : Text} {value : Value} (members : List (Text × Value))
    (different : name ≠ first) : ((first, value) :: members).lookup name = members.lookup name := by
  rw [List.lookup_cons, beq_eq_false_iff_ne.mpr different]

lemma mem_of_lookup {members : List (Text × Value)} {name : Text} {value : Value}
    (found : members.lookup name = some value) : (name, value) ∈ members := by
  obtain ⟨before, after, rfl, _⟩ := List.lookup_eq_some_iff.mp found
  simp

lemma lookup_of_mem {members : List (Text × Value)} {name : Text} {value : Value}
    (nodup : (members.map Prod.fst).Nodup) (mem : (name, value) ∈ members) :
    members.lookup name = some value := by
  induction members with
  | nil => cases mem
  | cons member members ih =>
    obtain ⟨first, other⟩ := member
    rw [List.map_cons, List.nodup_cons] at nodup
    rcases List.mem_cons.mp mem with same | later
    · cases same
      exact List.lookup_cons_self
    · have different : name ≠ first := by
        rintro rfl
        exact nodup.1 (List.mem_map.mpr ⟨_, later, rfl⟩)
      rw [lookup_cons_of_ne _ different, ih nodup.2 later]

lemma noRepeats_of_mem {members : List (Text × Value)} (goods : NoRepeatsMembers members) {name : Text}
    {value : Value} (mem : (name, value) ∈ members) : value.NoRepeats := by
  induction members with
  | nil => cases mem
  | cons member members ih =>
    obtain ⟨first, other⟩ := member
    rcases List.mem_cons.mp mem with same | mem
    · cases same
      exact goods.1
    · exact ih goods.2 mem

section Define
variable {name : Text} {value : Value} {members : List (Text × Value)}

lemma lookup_define_self (name : Text) (value : Value) (members : List (Text × Value)) :
    (define name value members).lookup name = some value := by
  induction members with
  | nil => exact List.lookup_cons_self
  | cons member members ih =>
    obtain ⟨first, old⟩ := member
    rw [define]
    split
    · exact List.lookup_cons_self
    split
    · exact List.lookup_cons_self
    · rename_i different _
      rw [lookup_cons_of_ne _ (Ne.symm different), ih]

lemma lookup_define_of_ne (value : Value) (members : List (Text × Value)) {other : Text}
    (different : other ≠ name) : (define name value members).lookup other = members.lookup other := by
  induction members with
  | nil => exact lookup_cons_of_ne [] different
  | cons member members ih =>
    obtain ⟨first, old⟩ := member
    rw [define]
    split
    · rename_i replaced
      rw [lookup_cons_of_ne _ different, lookup_cons_of_ne _ (replaced ▸ different)]
    split
    · exact lookup_cons_of_ne _ different
    · rw [List.lookup_cons, List.lookup_cons, ih]

lemma perm_define (fresh : name ∉ members.map Prod.fst) :
    (define name value members).Perm ((name, value) :: members) := by
  induction members with
  | nil => exact .refl _
  | cons member members ih =>
    obtain ⟨first, old⟩ := member
    rw [List.map_cons, List.mem_cons, not_or] at fresh
    rw [define, if_neg (Ne.symm fresh.1)]
    split
    · exact .refl _
    · exact ((ih fresh.2).cons _).trans (.swap _ _ _)

end Define

lemma perm_collapseMembers {members : List (Text × Value)} (defined : List (Text × Value))
    (nodup : (members.map Prod.fst).Nodup)
    (fresh : ∀ name ∈ members.map Prod.fst, name ∉ defined.map Prod.fst) :
    (collapseMembers defined members).Perm (defined ++ kept members) := by
  induction members generalizing defined with
  | nil =>
    rw [collapseMembers, kept, List.map_nil, List.append_nil]
  | cons member members ih =>
    obtain ⟨name, value⟩ := member
    rw [List.map_cons, List.nodup_cons] at nodup
    rw [List.map_cons, List.forall_mem_cons] at fresh
    have placed : (define name value.collapse defined).Perm ((name, value.collapse) :: defined) :=
      perm_define fresh.1
    have later : ∀ other ∈ members.map Prod.fst,
        other ∉ (define name value.collapse defined).map Prod.fst := by
      intro other mem found
      rcases List.mem_cons.mp ((placed.map Prod.fst).mem_iff.mp found) with rfl | old
      · exact nodup.1 mem
      · exact fresh.2 other mem old
    rw [collapseMembers, kept_cons]
    exact ((ih _ nodup.2 later).trans (placed.append_right _)).trans List.perm_middle.symm

lemma lookup_collapseMembers {members : List (Text × Value)} (defined : List (Text × Value))
    (nodup : (members.map Prod.fst).Nodup) (name : Text) :
    (collapseMembers defined members).lookup name =
      ((kept members).lookup name).or (defined.lookup name) := by
  induction members generalizing defined with
  | nil =>
    rw [collapseMembers]
    rfl
  | cons member members ih =>
    obtain ⟨first, value⟩ := member
    rw [List.map_cons, List.nodup_cons] at nodup
    rw [collapseMembers, ih _ nodup.2, kept_cons]
    by_cases same : name = first
    · subst same
      have absent : (kept members).lookup name = none := by
        rw [List.lookup_eq_none_iff]
        intro member mem
        have named : member.1 ∈ (kept members).map Prod.fst := List.mem_map_of_mem mem
        rw [kept_names] at named
        rw [bne_iff_ne]
        rintro rfl
        exact nodup.1 named
      rw [absent, lookup_define_self, List.lookup_cons_self]
      rfl
    · rw [lookup_define_of_ne _ _ same, lookup_cons_of_ne _ same]

lemma collapse_eq_object {written : Value} {found : List (Text × Value)} (good : written.NoRepeats)
    (same : written.collapse = .object found) :
    ∃ inner, written = .object inner ∧
      ∀ name, name ∈ found.map Prod.fst ↔ name ∈ inner.map Prod.fst := by
  cases written with
  | object inner =>
    cases same
    refine ⟨inner, rfl, fun name => ?_⟩
    have perm : (collapseMembers [] inner).Perm ([] ++ kept inner) :=
      perm_collapseMembers [] good.1 (by simp)
    rw [(perm.map Prod.fst).mem_iff, List.nil_append, kept_names]
  | _ => cases same

end Json
