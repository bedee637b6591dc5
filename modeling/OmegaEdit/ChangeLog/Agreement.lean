import OmegaEdit.ChangeLog.Streaming

/-! The streaming scanner and the document in memory. Both read the members of one object,
the scanner in the order of the text and one by one, the other after all of them have been
parsed and checked. They differ in two places: the scanner does not check the names of the
document, and it assigns the members to an object, where the name of the prototype has a
meaning of its own. -/
namespace OmegaEdit.ChangeLog
open Transition (bind_eq_ok)
open Utf16 Json
variable {name : String} {value : Value} {depth index count : Nat} {accumulator : ScanAccumulator}
  {updated scanned : Scanned} {entries : List NormalizedEntry} {document other : Document}
  {diagnostics : ScanDiagnostics} {result : ScanResult} {resolved : CodecLimits}

section Checks
variable {limits : CodecLimits}

lemma assertValidUnicodeString_name {text : Text}
    (valid : assertValidUnicodeString name text = .ok ()) (other : String) :
    assertValidUnicodeString other text = .ok () := by
  fun_induction assertValidUnicodeString name text with
  | case1 => rfl
  | case2 | case3 => cases valid
  | case4 unit notHigh notLow => simp [assertValidUnicodeString, notHigh, notLow]
  | case5 unit next rest high low ih =>
    rw [assertValidUnicodeString, if_pos high, if_pos low]
    exact ih valid
  | case6 | case7 => cases valid
  | case8 unit next rest notHigh notLow ih =>
    rw [assertValidUnicodeString, if_neg notHigh, if_neg notLow]
    exact ih valid

mutual

/-- A value that has been checked is not too high, and passes the check wherever it is not. -/
theorem validateValue_again : ∀ (value : Value) {name : String} {depth : Nat},
    validateChangeLogJsonValue limits name depth value = .ok () →
    depth + value.height ≤ limits.maxNesting ∧
      ∀ (other : String) (level : Nat), level + value.height ≤ limits.maxNesting →
        validateChangeLogJsonValue limits other level value = .ok ()
  | .null, name, depth, valid | .bool _, name, depth, valid | .number _, name, depth, valid => by
    simp only [validateChangeLogJsonValue, Value.height, add_zero] at valid ⊢
    split at valid
    · cases valid
    · exact ⟨by omega, fun other level flat => if_neg (by omega)⟩
  | .string text, name, depth, valid => by
    simp only [validateChangeLogJsonValue, Value.height, add_zero] at valid ⊢
    split at valid
    · cases valid
    split at valid
    · cases valid
    rename_i short
    refine ⟨by omega, fun other level flat => ?_⟩
    rw [if_neg (by omega), if_neg short, assertValidUnicodeString_name valid]
  | .array elements, name, depth, valid => by
    rw [validateChangeLogJsonValue] at valid
    split at valid
    · cases valid
    obtain ⟨high, again⟩ := validateElements_again elements valid
    rw [Value.height]
    refine ⟨high (by omega), fun other level flat => ?_⟩
    rw [validateChangeLogJsonValue, if_neg (by omega)]
    exact again other 0 level flat
  | .object members, name, depth, valid => by
    rw [validateChangeLogJsonValue] at valid
    split at valid
    · cases valid
    obtain ⟨high, again⟩ := validateMembers_again members valid
    rw [Value.height]
    refine ⟨high (by omega), fun other level flat => ?_⟩
    rw [validateChangeLogJsonValue, if_neg (by omega)]
    exact again other level flat

theorem validateElements_again : ∀ (elements : List Value) {name : String} {depth index : Nat},
    validateElements limits name depth index elements = .ok () →
    (depth ≤ limits.maxNesting → depth + heightElements elements ≤ limits.maxNesting) ∧
      ∀ (other : String) (place level : Nat), level + heightElements elements ≤ limits.maxNesting →
        validateElements limits other level place elements = .ok ()
  | [], _, _, _, _ => ⟨fun within => within, fun _ _ _ _ => rfl⟩
  | value :: elements, name, depth, index, valid => by
    rw [validateElements] at valid
    obtain ⟨_, first, valid⟩ := bind_eq_ok.mp valid
    obtain ⟨high, again⟩ := validateValue_again value first
    obtain ⟨highs, agains⟩ := validateElements_again elements valid
    rw [heightElements]
    refine ⟨fun within => ?_, fun other place level flat => ?_⟩
    · have := highs within
      omega
    · rw [validateElements, again _ _ (by omega)]
      exact agains other (place + 1) level (by omega)

theorem validateMembers_again : ∀ (members : List (Text × Value)) {name : String} {depth : Nat},
    validateMembers limits name depth members = .ok () →
    (depth ≤ limits.maxNesting → depth + heightMembers members ≤ limits.maxNesting) ∧
      ∀ (other : String) (level : Nat), level + heightMembers members ≤ limits.maxNesting →
        validateMembers limits other level members = .ok ()
  | [], _, _, _ => ⟨fun within => within, fun _ _ _ => rfl⟩
  | (key, value) :: members, name, depth, valid => by
    rw [validateMembers] at valid
    obtain ⟨_, unicode, valid⟩ := bind_eq_ok.mp valid
    obtain ⟨_, first, valid⟩ := bind_eq_ok.mp valid
    obtain ⟨high, again⟩ := validateValue_again value first
    obtain ⟨highs, agains⟩ := validateMembers_again members valid
    rw [heightMembers]
    refine ⟨fun within => ?_, fun other level flat => ?_⟩
    · have := highs within
      omega
    · rw [validateMembers, assertValidUnicodeString_name unicode]
      simp only [bind, Except.bind, again _ _ (by omega : level + 1 + value.height ≤ limits.maxNesting)]
      exact agains other level (by omega)

end

lemma validateValue_top (other : String)
    (valid : validateChangeLogJsonValue limits name depth value = .ok ()) :
    validateChangeLogJsonValue limits other 0 value = .ok () := by
  obtain ⟨high, again⟩ := validateValue_again value valid
  exact again other 0 (by omega)

lemma validateMembers_eq_ok {members : List (Text × Value)} :
    validateMembers limits name depth members = .ok () ↔
      ∀ member ∈ members, assertValidUnicodeString (name ++ " property") member.1 = .ok () ∧
        validateChangeLogJsonValue limits (name ++ "." ++ display member.1) (depth + 1) member.2 =
          .ok () := by
  induction members with
  | nil => simp [validateMembers]
  | cons member members ih =>
    rw [List.forall_mem_cons, ← ih, validateMembers]
    constructor
    · intro valid
      obtain ⟨_, unicode, valid⟩ := bind_eq_ok.mp valid
      obtain ⟨_, first, valid⟩ := bind_eq_ok.mp valid
      exact ⟨⟨unicode, first⟩, valid⟩
    · rintro ⟨⟨unicode, first⟩, valid⟩
      simp only [bind, Except.bind, unicode, first, valid]

lemma height_le_members {members : List (Text × Value)} {member : Text × Value} (mem : member ∈ members) :
    member.2.height + 1 ≤ heightMembers members := by
  induction members with
  | nil => cases mem
  | cons first members ih =>
    obtain ⟨name, value⟩ := first
    rw [heightMembers]
    rcases List.mem_cons.mp mem with rfl | later
    · exact Nat.le_max_left _ _
    · exact (ih later).trans (Nat.le_max_right _ _)

/-- Elements that have been checked one by one pass together, if they are not too high there. -/
lemma validateElements_of_each {elements : List Value}
    (valid : ∀ value ∈ elements, ∃ name, validateChangeLogJsonValue limits name 0 value = .ok ())
    (flat : depth + heightElements elements ≤ limits.maxNesting) :
    validateElements limits name depth index elements = .ok () := by
  induction elements generalizing index with
  | nil => rfl
  | cons value elements ih =>
    rw [List.forall_mem_cons] at valid
    rw [heightElements] at flat
    obtain ⟨⟨_, first⟩, others⟩ := valid
    rw [validateElements, (validateValue_again value first).2 _ _ (by omega)]
    exact ih others (by omega)

lemma normalizeEntries_valid {engine : Engine} {updated : ScanAccumulator} {values : List Value}
    (normalized : normalizeEntries engine limits accumulator index values = .ok (entries, updated)) :
    ∀ value ∈ values, ∃ name, validateChangeLogJsonValue limits name 0 value = .ok () := by
  induction values generalizing accumulator index entries with
  | nil => simp
  | cons value values ih =>
    obtain ⟨entry, normal, normalized⟩ := bind_eq_ok.mp normalized
    obtain ⟨taken, _, normalized⟩ := bind_eq_ok.mp normalized
    obtain ⟨⟨later, final⟩, others, normalized⟩ := bind_eq_ok.mp normalized
    cases normalized
    obtain ⟨_, valid, _⟩ := bind_eq_ok.mp normal
    rw [List.forall_mem_cons]
    exact ⟨⟨_, valid⟩, ih others⟩

end Checks

section Taking
variable {engine : Engine} {limits : CodecLimits}

/-- The document after the members other than the changes have been assigned. -/
def assignAll (document : Document) : List (Text × Value) → Document
  | [] => document
  | (name, value) :: rest =>
    assignAll (if name = ascii "changes" then document else document.assign name value) rest

/-- What has been scanned after members with different names. -/
structure Takes (engine : Engine) (limits : CodecLimits) (scanned : Scanned)
    (members : List (Text × Value)) (updated : Scanned) : Prop where
  valid : ∀ member ∈ members, member.1 ≠ ascii "changes" →
    validateChangeLogJsonValue limits ("Change log " ++ display member.1) 0 member.2 = .ok ()
  document : updated.document = assignAll scanned.document members
  absent : members.lookup (ascii "changes") = none →
    updated.sawChanges = scanned.sawChanges ∧ updated.entries = scanned.entries ∧
      updated.accumulator = scanned.accumulator
  present : ∀ value, members.lookup (ascii "changes") = some value → updated.sawChanges = true ∧
    ∃ changes, value = .array changes ∧
      normalizeEntries engine limits scanned.accumulator 0 changes = .ok (updated.entries, updated.accumulator)

lemma takeMember_changes : takeMember engine limits scanned (ascii "changes", value) = .ok updated ↔
    ascii "changes" ∉ scanned.seenProperties ∧ ∃ changes entries accumulator, value = .array changes ∧
      normalizeEntries engine limits scanned.accumulator 0 changes = .ok (entries, accumulator) ∧
      updated = { scanned with
        seenProperties := ascii "changes" :: scanned.seenProperties
        sawChanges := true, entries, accumulator } := by
  rw [takeMember]
  by_cases seen : ascii "changes" ∈ scanned.seenProperties
  · rw [if_pos seen]
    exact iff_of_false (by rintro ⟨⟩) fun unseen => unseen.1 seen
  rw [if_neg seen, if_pos rfl]
  cases value with
  | array changes =>
    constructor
    · intro taken
      obtain ⟨⟨entries, accumulator⟩, normalized, taken⟩ := bind_eq_ok.mp taken
      cases taken
      exact ⟨seen, changes, entries, accumulator, rfl, normalized, rfl⟩
    · rintro ⟨_, _, entries, accumulator, ⟨⟩, normalized, rfl⟩
      exact bind_eq_ok.mpr ⟨_, normalized, rfl⟩
  | _ => exact iff_of_false (by rintro ⟨⟩) (by rintro ⟨_, _, _, _, ⟨⟩, _⟩)

lemma takeMember_other {name : Text} (other : name ≠ ascii "changes") :
    takeMember engine limits scanned (name, value) = .ok updated ↔ name ∉ scanned.seenProperties ∧
      validateChangeLogJsonValue limits ("Change log " ++ display name) 0 value = .ok () ∧
      updated = { scanned with
        seenProperties := name :: scanned.seenProperties
        document := scanned.document.assign name value } := by
  rw [takeMember]
  by_cases seen : name ∈ scanned.seenProperties
  · rw [if_pos seen]
    exact iff_of_false (by rintro ⟨⟩) fun unseen => unseen.1 seen
  rw [if_neg seen, if_neg other]
  constructor
  · intro taken
    obtain ⟨_, valid, taken⟩ := bind_eq_ok.mp taken
    cases taken
    exact ⟨seen, valid, rfl⟩
  · rintro ⟨_, valid, rfl⟩
    exact bind_eq_ok.mpr ⟨_, valid, rfl⟩

lemma takeMembers_fresh {members : List (Text × Value)}
    (taken : takeMembers engine limits scanned members = .ok updated) :
    Fresh scanned.seenProperties members := by
  induction members generalizing scanned with
  | nil => exact ⟨List.nodup_nil, by simp⟩
  | cons member members ih =>
    obtain ⟨name, value⟩ := member
    obtain ⟨next, first, taken⟩ := bind_eq_ok.mp taken
    have later := ih taken
    by_cases isChanges : name = ascii "changes"
    · subst isChanges
      obtain ⟨unseen, changes, entries, accumulator, _, _, rfl⟩ := takeMember_changes.mp first
      exact fresh_cons.mpr ⟨unseen, later⟩
    · obtain ⟨unseen, _, rfl⟩ := (takeMember_other isChanges).mp first
      exact fresh_cons.mpr ⟨unseen, later⟩

lemma lookup_eq_none_of_fresh {keys : List Text} {name : Text} {members : List (Text × Value)}
    (fresh : Fresh keys members) (used : name ∈ keys) : members.lookup name = none := by
  rw [List.lookup_eq_none_iff]
  intro member mem
  rw [bne_iff_ne]
  rintro rfl
  exact fresh.2 member.1 (List.mem_map_of_mem mem) used

/-- What the scanner makes of the members. -/
lemma takeMembers_sound {members : List (Text × Value)}
    (taken : takeMembers engine limits scanned members = .ok updated) :
    Takes engine limits scanned members updated := by
  induction members generalizing scanned with
  | nil =>
    cases taken
    exact ⟨by simp, rfl, fun _ => ⟨rfl, rfl, rfl⟩, fun _ found => by cases found⟩
  | cons member members ih =>
    obtain ⟨name, value⟩ := member
    obtain ⟨next, first, taken⟩ := bind_eq_ok.mp taken
    have later := ih taken
    have fresh := takeMembers_fresh taken
    by_cases isChanges : name = ascii "changes"
    · subst isChanges
      obtain ⟨unseen, changes, entries, accumulator, rfl, normalized, rfl⟩ := takeMember_changes.mp first
      obtain ⟨saw, sameEntries, sameAccumulator⟩ :=
        later.absent (lookup_eq_none_of_fresh fresh (by simp))
      refine ⟨?_, ?_, ?_, ?_⟩
      · rw [List.forall_mem_cons]
        exact ⟨fun different => absurd rfl different, later.valid⟩
      · rw [later.document, assignAll, if_pos rfl]
      · intro absent
        rw [List.lookup_cons_self] at absent
        cases absent
      · intro found named
        rw [List.lookup_cons_self] at named
        cases named
        refine ⟨saw, changes, rfl, ?_⟩
        rw [sameEntries, sameAccumulator]
        exact normalized
    · obtain ⟨unseen, valid, rfl⟩ := (takeMember_other isChanges).mp first
      have skipped : ((name, value) :: members).lookup (ascii "changes") =
          members.lookup (ascii "changes") := lookup_cons_of_ne members (Ne.symm isChanges)
      refine ⟨?_, ?_, ?_, ?_⟩
      · rw [List.forall_mem_cons]
        exact ⟨fun _ => valid, later.valid⟩
      · rw [later.document, assignAll, if_neg isChanges]
      · rw [skipped]
        exact later.absent
      · rw [skipped]
        exact later.present

lemma takeMembers_complete {members : List (Text × Value)}
    (fresh : Fresh scanned.seenProperties members)
    (valid : ∀ member ∈ members, member.1 ≠ ascii "changes" →
      validateChangeLogJsonValue limits ("Change log " ++ display member.1) 0 member.2 = .ok ())
    (present : ∀ value, members.lookup (ascii "changes") = some value → ∃ changes entries accumulator,
      value = .array changes ∧
        normalizeEntries engine limits scanned.accumulator 0 changes = .ok (entries, accumulator)) :
    ∃ updated, takeMembers engine limits scanned members = .ok updated := by
  induction members generalizing scanned with
  | nil => exact ⟨scanned, rfl⟩
  | cons member members ih =>
    obtain ⟨name, value⟩ := member
    obtain ⟨unseen, others⟩ := fresh_cons.mp fresh
    rw [List.forall_mem_cons] at valid
    by_cases isChanges : name = ascii "changes"
    · subst isChanges
      obtain ⟨changes, entries, accumulator, rfl, normalized⟩ := present value List.lookup_cons_self
      rw [takeMembers, takeMember_changes.mpr
        ⟨unseen, changes, entries, accumulator, rfl, normalized, rfl⟩]
      refine ih others valid.2 fun value found => ?_
      rw [lookup_eq_none_of_fresh others (by simp)] at found
      cases found
    · rw [takeMembers, (takeMember_other isChanges).mpr ⟨unseen, valid.1 isChanges, rfl⟩]
      refine ih others valid.2 fun value found => present value ?_
      rw [lookup_cons_of_ne _ (Ne.symm isChanges)]
      exact found

end Taking

section Headers
variable {engine : Engine} {limits : CodecLimits}

def headerNames : List String :=
  ["format", "version", "complete", "changeCount", "sourceChangeCount", "unavailableChangeCount",
    "unavailableChangeSerials", "before", "after"]

lemma normalizeChangeLogHeader_congr
    (same : ∀ name ∈ headerNames, document.get name = other.get name) :
    normalizeChangeLogHeader engine limits document count =
      normalizeChangeLogHeader engine limits other count := by
  simp only [headerNames, List.forall_mem_cons, List.not_mem_nil, false_implies, implies_true,
    and_true] at same
  obtain ⟨format, version, complete, changeCount, sourceChangeCount, unavailableChangeCount, serials,
    before, after⟩ := same
  simp only [normalizeChangeLogHeader, format, version, complete, changeCount, sourceChangeCount,
    unavailableChangeCount, serials, before, after]

lemma get_ne_undefined {header : Header}
    (normalized : normalizeChangeLogHeader engine limits document count = .ok header) :
    ∀ name ∈ headerNames, document.get name ≠ .undefined := by
  rw [normalizeChangeLogHeader] at normalized
  split at normalized
  · cases normalized
  rename_i format
  split at normalized
  · cases normalized
  rename_i version
  split at normalized
  rotate_left
  · cases normalized
  rename_i complete
  obtain ⟨_, changeCount, normalized⟩ := bind_eq_ok.mp normalized
  obtain ⟨_, sourceChangeCount, normalized⟩ := bind_eq_ok.mp normalized
  obtain ⟨_, unavailableChangeCount, normalized⟩ := bind_eq_ok.mp normalized
  split at normalized
  · cases normalized
  split at normalized
  · cases normalized
  obtain ⟨_, serials, normalized⟩ := bind_eq_ok.mp normalized
  split at normalized
  · cases normalized
  split at normalized
  · cases normalized
  obtain ⟨_, before, normalized⟩ := bind_eq_ok.mp normalized
  obtain ⟨_, after, _⟩ := bind_eq_ok.mp normalized
  simp only [headerNames, List.forall_mem_cons, List.not_mem_nil, false_implies, implies_true, and_true]
  refine ⟨?_, ?_, ?_, ?_, ?_, ?_, ?_, ?_, ?_⟩ <;> intro missing
  · exact format (by rw [missing]; rfl)
  · exact version (by rw [missing]; rfl)
  · rw [missing] at complete
    cases complete
  · rw [missing] at changeCount
    cases changeCount
  · rw [missing] at sourceChangeCount
    cases sourceChangeCount
  · rw [missing] at unavailableChangeCount
    cases unavailableChangeCount
  · rw [missing] at serials
    cases serials
  · rw [missing] at before
    cases before
  · rw [missing] at after
    cases after

lemma assign_other (document : Document) {name : Text} (value : Value)
    (other : name ≠ ascii "__proto__") :
    document.assign name value = { document with own := document.own ++ [(name, value)] } :=
  if_neg other

lemma own_assign_prototype (document : Document) (value : Value) :
    (document.assign (ascii "__proto__") value).own = document.own := by
  unfold Document.assign
  rw [if_pos rfl]
  cases value <;> rfl

lemma inherited_assign_prototype (document : Document) (value : Value) :
    (document.assign (ascii "__proto__") value).inherited = document.inherited ∨
      value = .object (document.assign (ascii "__proto__") value).inherited := by
  unfold Document.assign
  rw [if_pos rfl]
  cases value with
  | object inner => exact .inr rfl
  | _ => exact .inl rfl

lemma lookup_own_assignAll {members : List (Text × Value)} (document : Document) {name : Text}
    (notChanges : name ≠ ascii "changes") (notPrototype : name ≠ ascii "__proto__") :
    (assignAll document members).own.lookup name =
      (document.own.lookup name).or (members.lookup name) := by
  induction members generalizing document with
  | nil => rw [assignAll, List.lookup_nil, Option.or_none]
  | cons member members ih =>
    obtain ⟨first, value⟩ := member
    rw [assignAll, ih]
    by_cases isChanges : first = ascii "changes"
    · rw [if_pos isChanges, lookup_cons_of_ne _ (isChanges ▸ notChanges)]
    rw [if_neg isChanges]
    by_cases isPrototype : first = ascii "__proto__"
    · subst isPrototype
      rw [own_assign_prototype, lookup_cons_of_ne _ notPrototype]
    · rw [assign_other _ _ isPrototype, List.lookup_append, Option.or_assoc]
      by_cases same : name = first
      · subst same
        rw [List.lookup_cons_self, List.lookup_cons_self]
        rfl
      · rw [lookup_cons_of_ne _ same, lookup_cons_of_ne _ same]
        rfl

lemma inherited_assignAll (members : List (Text × Value)) (document : Document) :
    (assignAll document members).inherited = document.inherited ∨
      (ascii "__proto__", .object (assignAll document members).inherited) ∈ members := by
  induction members generalizing document with
  | nil => exact .inl rfl
  | cons member members ih =>
    obtain ⟨first, value⟩ := member
    rw [assignAll]
    rcases ih (if first = ascii "changes" then document else document.assign first value) with same | mem
    · rw [same]
      split
      · exact .inl rfl
      by_cases isPrototype : first = ascii "__proto__"
      · subst isPrototype
        rcases inherited_assign_prototype document value with kept | object
        · exact .inl kept
        · right
          rw [← object]
          exact List.mem_cons_self
      · rw [assign_other _ _ isPrototype]
        exact .inl rfl
    · exact .inr (List.mem_cons_of_mem _ mem)

end Headers

section Documents
variable {engine : Engine} {limits : CodecLimits} {members : List (Text × Value)}

/-- The names of a document are well formed, and no name of its header stands only in the object that
is named as its prototype. -/
def PlainNames (members : List (Text × Value)) : Prop :=
  (∀ name ∈ members.map Prod.fst, assertValidUnicodeString "Change log property" name = .ok ()) ∧
    ∀ inner, (ascii "__proto__", Value.object inner) ∈ members → ∀ name ∈ headerNames,
      ascii name ∈ inner.map Prod.fst → ascii name ∈ members.map Prod.fst

lemma headerNames_ne (mem : name ∈ headerNames) :
    ascii name ≠ ascii "changes" ∧ ascii name ≠ ascii "__proto__" := by
  revert name
  decide

lemma lookup_collapsed (nodup : (members.map Prod.fst).Nodup) (name : Text) :
    (collapseMembers [] members).lookup name = (kept members).lookup name := by
  rw [lookup_collapseMembers [] nodup, List.lookup_nil, Option.or_none]

/-- A name that stands in the document itself has the same value for both readers. -/
lemma get_of_own (nodup : (members.map Prod.fst).Nodup) (known : name ∈ headerNames)
    (own : ascii name ∈ members.map Prod.fst) :
    (assignAll ⟨[], []⟩ (kept members)).get name =
      (⟨collapseMembers [] members, []⟩ : Document).get name := by
  obtain ⟨notChanges, notPrototype⟩ := headerNames_ne known
  rw [← kept_names] at own
  obtain ⟨⟨_, value⟩, mem, rfl⟩ := List.mem_map.mp own
  have found := lookup_of_mem (by rw [kept_names]; exact nodup) mem
  rw [Document.get, Document.get, lookup_own_assignAll _ notChanges notPrototype,
    lookup_collapsed nodup, found]
  rfl

lemma get_of_plain (nodup : (members.map Prod.fst).Nodup) (goods : NoRepeatsMembers members)
    (plain : PlainNames members) (known : name ∈ headerNames) :
    (assignAll ⟨[], []⟩ (kept members)).get name =
      (⟨collapseMembers [] members, []⟩ : Document).get name := by
  by_cases own : ascii name ∈ members.map Prod.fst
  · exact get_of_own nodup known own
  obtain ⟨notChanges, notPrototype⟩ := headerNames_ne known
  have absent : (kept members).lookup (ascii name) = none := by
    cases found : (kept members).lookup (ascii name) with
    | none => rfl
    | some value =>
      rw [← kept_names] at own
      exact absurd (List.mem_map_of_mem (mem_of_lookup found)) own
  have nowhere : (assignAll ⟨[], []⟩ (kept members)).inherited.lookup (ascii name) = none := by
    rcases inherited_assignAll (kept members) ⟨[], []⟩ with none | prototype
    · rw [none]
      rfl
    cases found : (assignAll ⟨[], []⟩ (kept members)).inherited.lookup (ascii name) with
    | none => rfl
    | some value =>
      obtain ⟨⟨first, written⟩, mem, same⟩ := List.mem_map.mp prototype
      obtain ⟨rfl, object⟩ := Prod.mk.inj same
      obtain ⟨inner, rfl, names⟩ := collapse_eq_object (noRepeats_of_mem goods mem) object
      have inherited := List.mem_map_of_mem (f := Prod.fst) (mem_of_lookup found)
      exact absurd (plain.2 inner mem name known ((names _).mp inherited)) own
  rw [Document.get, Document.get, lookup_own_assignAll _ notChanges notPrototype,
    lookup_collapsed nodup, absent, nowhere]
  rfl

lemma finish_congr (same : ∀ name ∈ headerNames, document.get name = other.get name) :
    accumulator.finish engine limits document diagnostics =
      accumulator.finish engine limits other diagnostics := by
  rw [ScanAccumulator.finish, ScanAccumulator.finish, normalizeChangeLogHeader_congr same]

/-- The scanner takes every document that is accepted in memory, and the names are plain. -/
lemma takes_of_memory (nodup : (members.map Prod.fst).Nodup)
    (done : normalizeChangeLogDocument engine limits (.object (collapseMembers [] members)) =
      .ok (entries, result)) :
    ∃ resolved scanned, resolveChangeLogCodecLimits limits = .ok resolved ∧
      takeMembers engine resolved .initial (kept members) = .ok scanned ∧ scanned.sawChanges = true ∧
      scanned.entries = entries ∧
      scanned.accumulator.finish engine resolved scanned.document ⟨0, 0, 0⟩ = .ok result ∧
      PlainNames members := by
  obtain ⟨resolved, limited, done⟩ := bind_eq_ok.mp done
  obtain ⟨_, valid, done⟩ := bind_eq_ok.mp done
  have perm : (collapseMembers [] members).Perm (kept members) :=
    perm_collapseMembers [] nodup (by simp)
  have found := lookup_collapsed nodup (ascii "changes")
  rw [validateChangeLogJsonValue, if_neg (Nat.not_lt_zero _), validateMembers_eq_ok] at valid
  dsimp only at done
  split at done
  rotate_left
  · cases done
  rename_i changes named
  rw [found] at named
  obtain ⟨⟨others, accumulator⟩, normalized, done⟩ := bind_eq_ok.mp done
  obtain ⟨final, finished, done⟩ := bind_eq_ok.mp done
  cases done
  have fresh : Fresh Scanned.initial.seenProperties (kept members) := by
    refine ⟨?_, fun name _ used => by cases used⟩
    rw [kept_names]
    exact nodup
  have valid' : ∀ member ∈ kept members, member.1 ≠ ascii "changes" →
      validateChangeLogJsonValue resolved ("Change log " ++ display member.1) 0 member.2 = .ok () := by
    intro member mem _
    exact validateValue_top _ (valid member (perm.mem_iff.mpr mem)).2
  have present : ∀ value, (kept members).lookup (ascii "changes") = some value →
      ∃ changes entries accumulator, value = .array changes ∧
        normalizeEntries engine resolved Scanned.initial.accumulator 0 changes =
          .ok (entries, accumulator) := by
    intro value found
    rw [named] at found
    cases found
    exact ⟨changes, _, _, rfl, normalized⟩
  obtain ⟨scanned, taken⟩ := takeMembers_complete fresh valid' present
  have takes := takeMembers_sound taken
  obtain ⟨saw, _, same, again⟩ := takes.present _ named
  cases same
  rw [show Scanned.initial.accumulator = ScanAccumulator.initial from rfl, normalized] at again
  obtain ⟨rfl, rfl⟩ := Prod.mk.inj (Except.ok.inj again)
  obtain ⟨header, headed, _⟩ := bind_eq_ok.mp finished
  have owned : ∀ name ∈ headerNames, ascii name ∈ members.map Prod.fst := by
    intro name known
    have defined := get_ne_undefined headed name known
    rw [Document.get, lookup_collapsed nodup] at defined
    cases present : (kept members).lookup (ascii name) with
    | none =>
      rw [present] at defined
      exact absurd rfl defined
    | some value =>
      rw [← kept_names]
      exact List.mem_map_of_mem (mem_of_lookup present)
  refine ⟨resolved, scanned, limited, taken, saw, rfl, ?_, ?_, fun _ _ name known _ => owned name known⟩
  · have same : ∀ name ∈ headerNames, (assignAll Scanned.initial.document (kept members)).get name =
        (⟨collapseMembers [] members, []⟩ : Document).get name :=
      fun name known => get_of_own nodup known (owned name known)
    rw [takes.document, finish_congr same]
    exact finished
  · intro name mem
    rw [← kept_names] at mem
    obtain ⟨member, inside, rfl⟩ := List.mem_map.mp mem
    exact (valid member (perm.mem_iff.mpr inside)).1

/-- A document that the scanner takes is accepted in memory, if its names are plain and it is not too
high. -/
lemma memory_of_takes (nodup : (members.map Prod.fst).Nodup) (goods : NoRepeatsMembers members)
    (plain : PlainNames members) (limited : resolveChangeLogCodecLimits limits = .ok resolved)
    (flat : heightMembers (collapseMembers [] members) ≤ resolved.maxNesting)
    (taken : takeMembers engine resolved .initial (kept members) = .ok scanned)
    (saw : scanned.sawChanges = true)
    (finished : scanned.accumulator.finish engine resolved scanned.document ⟨0, 0, 0⟩ = .ok result) :
    normalizeChangeLogDocument engine limits (.object (collapseMembers [] members)) =
      .ok (scanned.entries, result) := by
  have takes := takeMembers_sound taken
  have perm : (collapseMembers [] members).Perm (kept members) :=
    perm_collapseMembers [] nodup (by simp)
  have found := lookup_collapsed nodup (ascii "changes")
  obtain ⟨changes, named, normalized⟩ : ∃ changes,
      (kept members).lookup (ascii "changes") = some (.array changes) ∧
        normalizeEntries engine resolved .initial 0 changes =
          .ok (scanned.entries, scanned.accumulator) := by
    cases named : (kept members).lookup (ascii "changes") with
    | none =>
      rw [(takes.absent named).1] at saw
      cases saw
    | some value =>
      obtain ⟨_, changes, rfl, normalized⟩ := takes.present value named
      exact ⟨changes, rfl, normalized⟩
  have valid : validateChangeLogJsonValue resolved "Change log" 0
      (.object (collapseMembers [] members)) = .ok () := by
    rw [validateChangeLogJsonValue, if_neg (Nat.not_lt_zero _), validateMembers_eq_ok]
    intro member mem
    have high := height_le_members mem
    refine ⟨?_, ?_⟩
    · have named : member.1 ∈ members.map Prod.fst := by
        rw [← kept_names]
        exact List.mem_map_of_mem (perm.mem_iff.mp mem)
      exact assertValidUnicodeString_name (plain.1 _ named) _
    · by_cases isChanges : member.1 = ascii "changes"
      · have value : member.2 = .array changes := by
          have inside : (ascii "changes", member.2) ∈ kept members := by
            rw [← isChanges]
            exact perm.mem_iff.mp mem
          have found := lookup_of_mem (by rw [kept_names]; exact nodup) inside
          rw [named] at found
          exact (Option.some.inj found).symm
        rw [value, Value.height] at high
        rw [value, validateChangeLogJsonValue, if_neg (by omega)]
        exact validateElements_of_each (normalizeEntries_valid normalized) (by omega)
      · exact (validateValue_again member.2
          (takes.valid member (perm.mem_iff.mp mem) isChanges)).2 _ _ (by omega)
  have same : ∀ name ∈ headerNames, (assignAll Scanned.initial.document (kept members)).get name =
      (⟨collapseMembers [] members, []⟩ : Document).get name :=
    fun name known => get_of_plain nodup goods plain known
  have final : scanned.accumulator.finish engine resolved ⟨collapseMembers [] members, []⟩ ⟨0, 0, 0⟩ =
      .ok result := by
    rw [← finish_congr same, ← takes.document]
    exact finished
  rw [normalizeChangeLogDocument, limited]
  simp only [bind, Except.bind, valid, found, named, normalized, final]

end Documents

section Texts
variable (engine : Engine) (limits : CodecLimits) (text : Text)

def scanText : Except CodecError (List NormalizedEntry × ScanResult) :=
  scanChangeLogJson Utf8.decoder engine limits [.text text]

/-- The text parsed as a whole, and the document normalised in memory. -/
def readInMemory : Except CodecError (List NormalizedEntry × ScanResult) :=
  match parse text with
  | none => .error (invalidJson (engine.syntaxError text))
  | some value => normalizeChangeLogDocument engine limits value

/-- The text stays within the limits of the scanner on names, values, entries and their nesting. -/
def ScanFits : Prop :=
  ∀ space inner raw rest members, Spaces space → Spaces inner → Spaces rest →
    text = space ++ openBrace :: inner ++ raw ++ rest → LaidMembers members raw →
    ∀ member ∈ members, MemberFits limits member

/-- The parsed text stays within the limit on the depth of values. -/
def ParseFits : Prop := ∀ value, parse text = some value → value.height ≤ limits.maxNesting

/-- The names of the document that the text denotes are plain. -/
def PlainDocument : Prop := ∀ members, readText text = some (.object members) → PlainNames members

variable {engine limits text}

lemma accepted_eq_some {outcome : Except CodecError (List NormalizedEntry × ScanResult)} :
    accepted outcome = some (entries, result) ↔ ∃ found, outcome = .ok (entries, found) ∧
      result = { found with diagnostics := ⟨0, 0, 0⟩ } := by
  cases outcome with
  | error fault => simp [accepted]
  | ok outcome =>
    obtain ⟨others, found⟩ := outcome
    constructor
    · intro same
      cases same
      exact ⟨found, rfl, rfl⟩
    · rintro ⟨_, same, rfl⟩
      cases same
      rfl

lemma finish_diagnostics
    (finished : accumulator.finish engine limits document diagnostics = .ok result) :
    result.diagnostics = diagnostics := by
  obtain ⟨header, _, finished⟩ := bind_eq_ok.mp finished
  cases finished
  rfl

lemma accepted_scanText :
    accepted (scanText engine limits text) =
      accepted (Whole.input.scan engine limits (text.length + 1) (.of text)) := by
  have views : (Cursor.start Utf8.decoder [.text text]).Views Utf8.decoder (.of text) := by
    show Cursor.view Utf8.decoder _ _ = _
    simp [Cursor.view, Cursor.start, Cursor.remaining, Utf8.decoder, Utf8.flush, Utf8.start]
  exact accepted_scan views

/-- What a scan that is accepted has read. -/
lemma scanText_sound (done : accepted (scanText engine limits text) = some (entries, result)) :
    ∃ members resolved scanned, readText text = some (.object members) ∧
      (Value.object members).NoRepeats ∧ resolveChangeLogCodecLimits limits = .ok resolved ∧
      takeMembers engine resolved .initial (kept members) = .ok scanned ∧ scanned.sawChanges = true ∧
      scanned.accumulator.finish engine resolved scanned.document ⟨0, 0, 0⟩ = .ok result ∧
      scanned.entries = entries := by
  rw [accepted_scanText] at done
  obtain ⟨found, scan, rfl⟩ := accepted_eq_some.mp done
  obtain ⟨resolved, limited, scan⟩ := bind_eq_ok.mp scan
  obtain ⟨⟨scanned, next⟩, document, scan⟩ := bind_eq_ok.mp scan
  obtain ⟨final, finished, scan⟩ := bind_eq_ok.mp scan
  cases scan
  obtain ⟨members, denotes, goods, taken, saw⟩ := scanDocument_sound document
  have nodup := (takeMembers_fresh taken).1
  rw [kept_names] at nodup
  have nothing : found.diagnostics = ⟨0, 0, 0⟩ := finish_diagnostics finished
  have same : ({ found with diagnostics := ⟨0, 0, 0⟩ } : ScanResult) = found := by
    rw [← nothing]
  rw [same]
  exact ⟨members, resolved, scanned, readText_eq_some_iff.mpr denotes, ⟨nodup, goods⟩, limited, taken, saw,
    finished, rfl⟩

lemma resolve_eq (limited : resolveChangeLogCodecLimits limits = .ok resolved) :
    resolved = limits := by
  rw [resolveChangeLogCodecLimits] at limited
  split at limited
  · cases limited
  · exact (Except.ok.inj limited).symm

/-- What is taken from a text is scanned, if it stays within the limits. -/
lemma scanText_complete {members : List (Text × Value)}
    (read : readText text = some (.object members)) (goods : NoRepeatsMembers members)
    (limited : resolveChangeLogCodecLimits limits = .ok resolved)
    (taken : takeMembers engine resolved .initial (kept members) = .ok scanned)
    (saw : scanned.sawChanges = true)
    (finished : scanned.accumulator.finish engine resolved scanned.document ⟨0, 0, 0⟩ = .ok result)
    (fits : ScanFits limits text) :
    accepted (scanText engine limits text) = some (scanned.entries, result) := by
  obtain rfl := resolve_eq limited
  obtain ⟨space, raw, rest, spaces, rests, spells, rfl⟩ := readText_eq_some_iff.mp read
  cases spells with
  | word known => rcases wordValue_cases known with same | ⟨_, same⟩ | same <;> cases same
  | emptyObject _ =>
    cases taken
    cases saw
  | @object _ inner raw inners spells =>
    obtain ⟨laidMembers, rfl, laid⟩ := spells.laid
    have split : space ++ (openBrace :: inner ++ raw) ++ rest = space ++ openBrace :: inner ++ raw ++ rest := by
      simp
    rw [split] at fits ⊢
    have document := scanDocument_complete spaces inners rests laid goods
      (fits space inner raw rest laidMembers spaces inners rests rfl laid) (Nat.le_succ _) taken saw
    have ends : scanned.accumulator.finish engine resolved scanned.document
        (Whole.input.diagnostics (.of [])) = .ok result := finished
    rw [accepted_scanText, accepted_eq_some]
    refine ⟨result, ?_, ?_⟩
    · rw [Source.scan, limited]
      simp only [bind, Except.bind, document, ends]
    · rw [← finish_diagnostics finished]

/-- What is accepted in memory has been scanned, with plain names. -/
lemma readInMemory_sound {members : List (Text × Value)}
    (read : readText text = some (.object members)) (good : (Value.object members).NoRepeats)
    (fits : ScanFits limits text)
    (done : accepted (readInMemory engine limits text) = some (entries, result)) :
    accepted (scanText engine limits text) = some (entries, result) ∧ PlainNames members := by
  obtain ⟨found, memory, rfl⟩ := accepted_eq_some.mp done
  rw [readInMemory, parse, read] at memory
  obtain ⟨resolved, scanned, limited, taken, saw, rfl, finished, plain⟩ := takes_of_memory good.1 memory
  rw [← finish_diagnostics finished]
  exact ⟨scanText_complete read good.2 limited taken saw finished fits, plain⟩

lemma readInMemory_object
    (done : accepted (readInMemory engine limits text) = some (entries, result)) :
    ∃ members, readText text = some (.object members) := by
  obtain ⟨found, memory, _⟩ := accepted_eq_some.mp done
  rw [readInMemory, parse] at memory
  cases read : readText text with
  | none =>
    rw [read] at memory
    cases memory
  | some value =>
    rw [read] at memory
    obtain ⟨_, _, memory⟩ := bind_eq_ok.mp memory
    obtain ⟨_, _, memory⟩ := bind_eq_ok.mp memory
    cases value with
    | object members => exact ⟨members, rfl⟩
    | _ => cases memory

/-- What is scanned is accepted in memory, if the names are plain. -/
lemma readInMemory_complete (plain : PlainDocument text) (flat : ParseFits limits text)
    (done : accepted (scanText engine limits text) = some (entries, result)) :
    accepted (readInMemory engine limits text) = some (entries, result) := by
  obtain ⟨members, resolved, scanned, read, good, limited, taken, saw, finished, rfl⟩ :=
    scanText_sound done
  obtain rfl := resolve_eq limited
  have parsed : parse text = some (.object (collapseMembers [] members)) := by
    rw [parse, read]
    rfl
  have accepts := memory_of_takes good.1 good.2 (plain members read) limited (flat _ parsed) taken saw
    finished
  rw [accepted_eq_some, readInMemory, parsed]
  exact ⟨result, accepts, by rw [← finish_diagnostics finished]⟩

lemma noRepeats_of_accepted (accepts : accepted (scanText engine limits text) ≠ none) :
    ∀ value, readText text = some value → value.NoRepeats := by
  intro value read
  obtain ⟨outcome, scan⟩ := Option.ne_none_iff_exists'.mp accepts
  obtain ⟨members, _, _, object, good, _⟩ := scanText_sound scan
  rw [read] at object
  cases object
  exact good

/-- A text that repeats a name is not scanned. Within the limits the scanner and the document in
memory accept the same texts with plain names, and yield the same; a text without plain names is never
accepted in memory. -/
theorem scanText_agrees (engine : Engine) (limits : CodecLimits) (text : Text) :
    ((∃ value, readText text = some value ∧ ¬ value.NoRepeats) →
      accepted (scanText engine limits text) = none) ∧
    ((∀ value, readText text = some value → value.NoRepeats) →
      ScanFits limits text → ParseFits limits text → (PlainDocument text →
        accepted (scanText engine limits text) = accepted (readInMemory engine limits text)) ∧
      (accepted (scanText engine limits text) ≠ none →
        accepted (scanText engine limits text) = accepted (readInMemory engine limits text) →
          PlainDocument text)) := by
  constructor
  · rintro ⟨value, read, repeats⟩
    by_contra accepts
    exact repeats (noRepeats_of_accepted accepts value read)
  · intro unique fits flat
    constructor
    · intro plain
      cases scan : accepted (scanText engine limits text) with
      | some outcome => exact (readInMemory_complete plain flat scan).symm
      | none =>
        cases memory : accepted (readInMemory engine limits text) with
        | none => rfl
        | some outcome =>
          obtain ⟨members, read⟩ := readInMemory_object memory
          have both := (readInMemory_sound read (unique _ read) fits memory).1
          rw [scan] at both
          cases both
    · intro accepts agree members read
      obtain ⟨outcome, scan⟩ := Option.ne_none_iff_exists'.mp accepts
      rw [scan] at agree
      exact (readInMemory_sound read (unique _ read) fits agree.symm).2

lemma scanFits_of_short (name : text.length ≤ 65536) (header : text.length ≤ limits.maxHeaderValueChars)
    (entry : text.length ≤ limits.maxEntryChars) (flat : text.length ≤ 2 * limits.maxNesting) :
    ScanFits limits text := by
  rintro space inner raw rest members _ _ _ rfl laid member mem
  simp only [List.length_append, List.length_cons] at name header entry flat
  obtain ⟨spells, shorter⟩ := laid.of_mem mem
  refine ⟨by omega, ?_⟩
  split
  · rintro gap tail elements _ split laidElements element elementMem
    obtain ⟨elementSpells, elementShorter⟩ := laidElements.of_mem elementMem
    have nested := elementSpells.nesting
    simp only [NestingFits] at nested
    rw [split] at shorter
    simp only [List.length_append, List.length_cons] at shorter
    exact ⟨by omega, by omega⟩
  · have nested := spells.nesting
    simp only [NestingFits] at nested
    exact ⟨by omega, by omega⟩

lemma parseFits_of_all
    (flat : ((parse text).all fun value => decide (value.height ≤ limits.maxNesting)) = true) :
    ParseFits limits text := by
  intro value parsed
  rw [parsed] at flat
  exact of_decide_eq_true flat

end Texts

section Inputs

/-- A document whose header stands in the object that is named as its prototype. -/
def prototypeText : Text :=
  ascii "\x7b\"__proto__\":\x7b" ++ headerText "0" ++ ascii "\x7d,\"changes\":[]\x7d"

/-- The header of an empty log is scanned in the prototype, but not found there in memory. -/
theorem scanText_prototype :
    (∀ value, readText prototypeText = some value → value.NoRepeats) ∧
      ScanFits defaultCodecLimits prototypeText ∧ ParseFits defaultCodecLimits prototypeText ∧
      accepted (scanText .canonical defaultCodecLimits prototypeText) ≠
        accepted (readInMemory .canonical defaultCodecLimits prototypeText) := by
  have scans : accepted (scanText .canonical defaultCodecLimits prototypeText) ≠ none :=
    Option.isSome_iff_ne_none.mp (by decide +kernel)
  have refuses : accepted (readInMemory .canonical defaultCodecLimits prototypeText) = none :=
    Option.isNone_iff_eq_none.mp (by decide +kernel)
  have short : prototypeText.length = 313 := by decide +kernel
  refine ⟨noRepeats_of_accepted scans, scanFits_of_short ?_ ?_ ?_ ?_,
    parseFits_of_all (by decide +kernel), by rwa [refuses]⟩ <;> rw [short] <;> decide

/-- A log of a tracked insertion and a transform is accepted by both, and a repeated name is refused. -/
theorem scanText_agrees_plain :
    accepted (scanText .canonical defaultCodecLimits plainText) =
        accepted (readInMemory .canonical defaultCodecLimits plainText) ∧
      (accepted (scanText .canonical defaultCodecLimits plainText)).map
          (fun found => found.1.map (·.kind)) = some [.insert, .transform] ∧
      accepted (scanText .canonical defaultCodecLimits (ascii "\x7b\"a\":1,\"\\u0061\":2\x7d")) =
        none := by
  have scans : accepted (scanText .canonical defaultCodecLimits plainText) ≠ none :=
    Option.isSome_iff_ne_none.mp (by decide +kernel)
  have reads : accepted (readInMemory .canonical defaultCodecLimits plainText) ≠ none :=
    Option.isSome_iff_ne_none.mp (by decide +kernel)
  have short : plainText.length = 484 := by decide +kernel
  have unique := noRepeats_of_accepted scans
  have fits : ScanFits defaultCodecLimits plainText := by
    apply scanFits_of_short <;> rw [short] <;> decide
  have plain : PlainDocument plainText := by
    intro members read
    obtain ⟨outcome, memory⟩ := Option.ne_none_iff_exists'.mp reads
    exact (readInMemory_sound read (unique _ read) fits memory).2
  have agrees := (scanText_agrees .canonical defaultCodecLimits plainText).2 unique fits
    (parseFits_of_all (by decide +kernel))
  refine ⟨agrees.1 plain, by decide +kernel, (scanText_agrees .canonical defaultCodecLimits _).1
    ⟨.object [(ascii "a", .number (ascii "1")), (ascii "a", .number (ascii "2"))], rfl, ?_⟩⟩
  intro good
  exact absurd good.1 (by decide)

end Inputs
end OmegaEdit.ChangeLog
