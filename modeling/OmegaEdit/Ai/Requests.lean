import OmegaEdit.Ai.Toolkit
import OmegaEdit.Refinement

/-! What each request of the toolkit does to the session: it only ever appends to the active
changes, also when it fails, and when it is answered the content is what the edit makes of it.
The edits of one range are those of the core. -/
namespace OmegaEdit.Ai
open ChangeLog Effects Splice
variable {edit : Edit} {primitive : PrimitiveEdit} {α : Type} {rpc : Rpc} {pre : World → Prop}
  {failed : Failure → World → Prop} {world : World} {name : String} {value : Nat}

section Core
variable {content : List Byte}

/-- The call of the core that the server makes for an edit. -/
def Edit.core : Edit → Option PrimitiveEdit
  | insert offset data => some (.insert offset (some fun index => data.getD index 0) data.length)
  | delete offset length => some (.delete offset length)
  | overwrite offset data =>
    some (.overwrite offset (some fun index => data.getD index 0) data.length)
  | transform _ _ _ => none

lemma readMemory_getD (data : List Byte) :
    readMemory (fun index => data.getD index 0) data.length = data := by
  apply List.ext_getElem
  · simp [readMemory]
  · intro index inside within
    simp [readMemory, within]

lemma Edit.accepted_of_described {change : Change} (plugins : Plugins)
    (core : edit.core = some primitive) (described : primitive.Describes content.length change)
    (fits : change.Fits content) :
    edit.accepted content = true ∧ change.apply content = edit.apply plugins content := by
  cases edit with
  | insert offset data | overwrite offset data =>
    cases core
    obtain ⟨kind, starts, covers, memory, ⟨⟩, stored⟩ := described
    have range := ((Change.fits_iff_of_ne (by simp [kind])).mp fits).1
    have positive := range.positive
    have inside := range.offset_le
    have nonempty : data ≠ [] := by
      rintro rfl
      simp only [List.length_nil, Nat.cast_zero] at covers
      omega
    refine ⟨?_, ?_⟩
    · simp only [accepted, Bool.and_eq_true, Bool.not_eq_true', List.isEmpty_eq_false_iff,
        decide_eq_true_eq]
      exact ⟨nonempty, by omega⟩
    · rw [readMemory_getD] at stored
      simp only [Change.apply, kind, apply, starts, covers, stored, Int.toNat_natCast]
  | delete offset length =>
    cases core
    obtain ⟨kind, starts, covers⟩ := described
    have range := ((Change.fits_iff_of_ne (by simp [kind])).mp fits).1
    have positive := range.positive
    refine ⟨?_, ?_⟩
    · simp only [accepted, Bool.and_eq_true, bne_iff_ne, ne_eq, decide_eq_true_eq]
      omega
    · have clipped : change.length.toNat = min length (content.length - offset) := by omega
      simp only [Change.apply, kind, apply, starts, clipped, Int.toNat_natCast, splice_clip]
  | transform descriptor offset length => cases core

/-- The core gives a serial to accepted edits only, and then it makes of the content what the
edit says. -/
theorem Edit.core_refines {session : Session} (plugins : Plugins)
    (denotes : session.top.HasContent content) (core : edit.core = some primitive) :
    ∃ next result, session.step primitive.call = .ok (next, result) ∧
      (0 < result → edit.accepted content = true ∧
        next.top.HasContent (edit.apply plugins content)) ∧
      (¬ 0 < result → next.top.HasContent content) := by
  obtain ⟨next, result, done, ⟨positive, ⟨change, described, fits, spliced⟩, after, _⟩ | ⟨answer, same⟩⟩ :=
    session.step_primitive primitive denotes
  · refine ⟨next, result, done, fun _ => ?_, fun none => absurd positive none⟩
    obtain ⟨accepted, applied⟩ := edit.accepted_of_described plugins core described fits
    rw [← applied, spliced]
    exact ⟨accepted, after⟩
  · refine ⟨next, result, done, fun serial => by omega, fun _ => ?_⟩
    rwa [Session.top, same]

theorem Edit.core_refines_insert : ∃ next result,
    (createSession none 0 0).step (.insertBytes 0 (some fun index => [97].getD index 0) 1) =
      .ok (next, result) ∧ 0 < result ∧ next.top.HasContent [97] := by
  obtain ⟨next, result, done, accepted, _⟩ := Edit.core_refines (fun _ _ _ content => content)
    (createSession_denotes none 0 0) (rfl : (insert 0 [97]).core = _)
  have serial : 0 < result := by
    cases done
    decide
  exact ⟨next, result, done, serial, (accepted serial).2⟩

end Core

/-- The changes of the start are still there, with others behind them. -/
structure Extends (start : RemoteSession) (world : World) : Prop where
  original : world.session.original = start.original
  changes : start.changes <+: world.session.changes

/-- The session has grown out of the start, and this is where it stands. -/
structure At (plugins : Plugins) (start : RemoteSession) (content : List Byte) (applied : Nat)
    (world : World) : Prop extends Extends start world where
  content_eq : world.session.content plugins = content
  applied_eq : world.appliedChangeCount = applied

section Requests
variable {env : Environment} {start : RemoteSession} {content : List Byte} {applied : Nat}

lemma content_record (plugins : Plugins) (session : RemoteSession) (edit : Edit) :
    (session.record edit).content plugins = edit.apply plugins (session.content plugins) := by
  simp only [RemoteSession.content, RemoteSession.record, List.foldl_append, List.foldl_cons,
    List.foldl_nil]

def World.sent (world : World) (session : RemoteSession) : World :=
  { world with session, requests := world.requests + 1 }

lemma request_spec {perform : Nat → RemoteSession → Option (RemoteSession × α)}
    {post : α → World → Prop} (answers : ∀ world session answer, pre world →
      perform world.requests world.session = some (session, answer) →
      post answer (world.sent session) ∧ failed (.request rpc) (world.sent session))
    (refuses : ∀ world, pre world → failed (.request rpc) (world.sent world.session)) :
    Spec pre (request env rpc perform) post failed := by
  intro world holds
  simp only [EStateM.run, request]
  cases performed : perform world.requests world.session with
  | none =>
    cases env.outcome world.requests with
    | answered | refused | lost => exact refuses world holds
  | some result =>
    obtain ⟨session, answer⟩ := result
    have answered := answers world session answer holds performed
    cases env.outcome world.requests with
    | answered => exact answered.1
    | refused => exact refuses world holds
    | lost => exact answered.2

lemma Extends.sent (extends_ : Extends start world) :
    Extends start (world.sent world.session) :=
  ⟨extends_.original, extends_.changes⟩

lemma Extends.record (extends_ : Extends start world) (edit : Edit) :
    Extends start (world.sent (world.session.record edit)) :=
  ⟨extends_.original, extends_.changes.trans (List.prefix_append _ _)⟩

lemma At.sent (here : At env.plugins start content applied world) :
    At env.plugins start content applied (world.sent world.session) :=
  ⟨here.toExtends.sent, here.content_eq, here.applied_eq⟩

lemma At.record (here : At env.plugins start content applied world) (edit : Edit) :
    At env.plugins start (edit.apply env.plugins content) applied
      (world.sent (world.session.record edit)) := by
  refine ⟨here.toExtends.record edit, ?_, here.applied_eq⟩
  rw [← here.content_eq]
  exact content_record env.plugins world.session edit

/-- What a request that changes nothing may be sent in. -/
def Steady (P : World → Prop) : Prop := ∀ world, P world → P (world.sent world.session)

lemma query_spec {answer : Nat → RemoteSession → Option α} (steady : Steady pre)
    (fails : ∀ fault world, pre world → failed fault world) :
    Spec pre (query env rpc answer) (fun value world => pre world ∧
      ∃ number, answer number world.session = some value) failed := by
  refine request_spec ?_ ?_
  · intro world session value holds performed
    obtain ⟨found, asked, same⟩ := Option.map_eq_some_iff.mp performed
    cases same
    exact ⟨⟨steady world holds, world.requests, asked⟩, fails _ _ (steady world holds)⟩
  · intro world holds
    exact fails _ _ (steady world holds)

lemma requiring {post : α → World → Prop} {next : Nat → Toolkit α}
    (fails : ∀ world, pre world → failed (.unsafeInteger name) world)
    (goes : Spec pre (next value) post failed) :
    Spec pre (requireSafeInteger name value >>= next) post failed := by
  rw [requireSafeInteger]
  split
  · exact goes
  · exact fun world holds => fails world holds

lemma requiring_last (fails : ∀ world, pre world → failed (.unsafeInteger name) world) :
    Spec pre (requireSafeInteger name value) (fun result world => result = value ∧ pre world)
      failed := by
  rw [requireSafeInteger]
  split
  · exact Spec.returns fun world holds => ⟨rfl, holds⟩
  · exact Spec.throws fun world holds => fails world holds

lemma At.grown (world : World) (here : At env.plugins start content applied world) :
    Extends start world :=
  here.toExtends

lemma At.fails (fault : Failure) (world : World)
    (here : At env.plugins start content applied world) :
    (fun _ : Failure => Extends start) fault world :=
  here.toExtends

lemma At.steady : Steady (At env.plugins start content applied) := fun _ here => here.sent

lemma submitChange_spec (edit : Edit) :
    Spec (At env.plugins start content applied) (submitChange env edit)
      (fun _ world => edit.accepted content = true ∧
        At env.plugins start (edit.apply env.plugins content) applied world)
      (fun _ => Extends start) := by
  have asked : Spec (At env.plugins start content applied)
      (request env .submitChange fun _ session =>
        if edit.accepted (session.content env.plugins) then
          some (session.record edit, (session.record edit).changeCount)
        else none)
      (fun _ world => edit.accepted content = true ∧
        At env.plugins start (edit.apply env.plugins content) applied world)
      (fun _ => Extends start) := by
    refine request_spec ?_ ?_
    · intro world session serial here performed
      rw [here.content_eq] at performed
      split at performed
      · next accepted =>
        cases performed
        exact ⟨⟨accepted, here.record edit⟩, here.toExtends.record edit⟩
      · cases performed
    · intro world here
      exact here.toExtends.sent
  refine Spec.andThen asked fun serial => Spec.given fun accepted => ?_
  refine (requiring_last At.grown).weaken (fun _ here => here) ?_ (fun _ _ grown => grown)
  rintro _ world ⟨_, here⟩
  exact ⟨accepted, here⟩

lemma insert_spec (offset : Nat) (data : List Byte) :
    Spec (At env.plugins start content applied) (insert env offset data)
      (fun _ => At env.plugins start (splice content offset 0 data) applied)
      (fun _ => Extends start) := by
  refine requiring At.grown ?_
  exact (submitChange_spec (.insert offset data)).weaken (fun _ here => here)
    (fun _ _ submitted => submitted.2) (fun _ _ grown => grown)

lemma del_spec (offset length : Nat) :
    Spec (At env.plugins start content applied) (del env offset length)
      (fun _ world => offset ≤ content.length ∧
        At env.plugins start (splice content offset length []) applied world)
      (fun _ => Extends start) := by
  refine requiring At.grown (requiring At.grown ?_)
  refine (submitChange_spec (.delete offset length)).weaken (fun _ here => here) ?_
    (fun _ _ grown => grown)
  rintro _ world ⟨accepted, here⟩
  simp only [Edit.accepted, Bool.and_eq_true, decide_eq_true_eq] at accepted
  exact ⟨accepted.2.le, here⟩

lemma overwrite_spec (offset : Nat) (data : List Byte) :
    Spec (At env.plugins start content applied) (overwrite env offset data)
      (fun _ => At env.plugins start (splice content offset data.length data) applied)
      (fun _ => Extends start) := by
  refine requiring At.grown ?_
  exact (submitChange_spec (.overwrite offset data)).weaken (fun _ here => here)
    (fun _ _ submitted => submitted.2) (fun _ _ grown => grown)

/-- The requests that open and close a transaction leave the changes alone. -/
def TransactionFree (P : World → Prop) : Prop :=
  ∀ world isOpen, P world → P (world.sent { world.session with transactionOpen := isOpen })

lemma Extends.transactionFree : TransactionFree (Extends start) :=
  fun _ _ grown => ⟨grown.original, grown.changes⟩

lemma At.transactionFree : TransactionFree (At env.plugins start content applied) :=
  fun _ isOpen here => ⟨Extends.transactionFree _ isOpen here.toExtends, here.content_eq,
    here.applied_eq⟩

lemma Extends.steady : Steady (Extends start) := fun _ grown => grown.sent

lemma transaction_spec {isOpen : Bool} (steady : Steady pre) (free : TransactionFree pre)
    (fails : ∀ fault world, pre world → failed fault world) :
    Spec pre (request env rpc fun _ session =>
      some ({ session with transactionOpen := isOpen }, ())) (fun _ => pre) failed := by
  refine request_spec ?_ ?_
  · rintro world _ _ holds ⟨⟩
    exact ⟨free world isOpen holds, fails _ _ (free world isOpen holds)⟩
  · intro world holds
    exact fails _ _ (steady world holds)

/-- A transaction around a computation adds nothing to the changes and takes none away. -/
lemma runSessionTransaction_spec {work : Toolkit α} {reached : List Byte} {count : Nat}
    (works : Spec (At env.plugins start content applied) work
      (fun _ => At env.plugins start reached count) (fun _ => Extends start)) :
    Spec (At env.plugins start content applied) (runSessionTransaction env work)
      (fun _ => At env.plugins start reached count) (fun _ => Extends start) := by
  refine Spec.andThen (transaction_spec At.steady At.transactionFree At.fails) fun _ => ?_
  refine Spec.closing works ?_ ?_
  · intro _
    exact transaction_spec At.steady At.transactionFree At.fails
  · intro _
    exact transaction_spec Extends.steady Extends.transactionFree (fun _ _ grown => grown)

lemma replace_spec (offset removed : Nat) (replacement : List Byte) :
    Spec (At env.plugins start content applied) (replace env offset removed replacement)
      (fun _ => At env.plugins start (splice content offset removed replacement) applied)
      (fun _ => Extends start) := by
  refine requiring At.grown (requiring At.grown ?_)
  split
  · next none =>
    rw [none]
    exact insert_spec offset replacement
  split
  · next empty =>
    rw [List.length_eq_zero_iff.mp empty]
    exact (del_spec offset removed).weaken (fun _ here => here) (fun _ _ deleted => deleted.2)
      (fun _ _ grown => grown)
  split
  · next same =>
    rw [← same]
    exact overwrite_spec offset replacement
  · refine runSessionTransaction_spec ?_
    refine Spec.andThen (del_spec offset removed) fun _ => Spec.given fun inside => ?_
    have inserted : Spec (At env.plugins start (splice content offset removed []) applied)
        (insert env offset replacement)
        (fun _ => At env.plugins start
          (splice (splice content offset removed []) offset 0 replacement) applied)
        (fun _ => Extends start) := insert_spec offset replacement
    rw [splice_delete_insert content replacement inside] at inserted
    exact inserted

lemma getComputedFileSize_spec :
    Spec (At env.plugins start content applied) (getComputedFileSize env)
      (fun _ => At env.plugins start content applied) (fun _ => Extends start) := by
  refine Spec.andThen (query_spec At.steady At.fails) fun size => ?_
  refine (requiring_last At.grown).weaken (fun _ asked => asked.1) (fun _ _ checked => checked.2)
    (fun _ _ grown => grown)

lemma applyTransformPlugin_spec (descriptor : TransformDescriptor) (offset length : Nat) :
    Spec (At env.plugins start content applied) (applyTransformPlugin env descriptor offset length)
      (fun response => At env.plugins start (if response.contentChanged then
        env.plugins descriptor offset length content else content) applied)
      (fun _ => Extends start) := by
  refine requiring At.grown (requiring At.grown ?_)
  have asked : Spec (At env.plugins start content applied)
      (request env .applyTransformPlugin fun number session =>
        if (env.transformed number).contentChanged then
          some (session.record (.transform descriptor offset length), env.transformed number)
        else some (session, env.transformed number))
      (fun response => At env.plugins start (if response.contentChanged then
        env.plugins descriptor offset length content else content) applied)
      (fun _ => Extends start) := by
    refine request_spec ?_ ?_
    · intro world session response here performed
      split at performed
      · next changed =>
        cases performed
        rw [if_pos changed]
        exact ⟨here.record (.transform descriptor offset length), here.toExtends.record _⟩
      · next same =>
        cases performed
        rw [if_neg same]
        exact ⟨here.sent, here.toExtends.sent⟩
    · intro world here
      exact here.toExtends.sent
  refine Spec.andThen asked fun response => ?_
  refine requiring At.grown (requiring At.grown (requiring At.grown (requiring At.grown
    (requiring At.grown ?_))))
  exact Spec.returns fun _ here => here

lemma applyTransform_spec (descriptor : TransformDescriptor) (offset length : Nat) :
    Spec (At env.plugins start content applied) (applyTransform env descriptor offset length)
      (fun _ => At env.plugins start (env.plugins descriptor offset length content) applied)
      (fun _ => Extends start) := by
  refine Spec.andThen getComputedFileSize_spec fun _ => ?_
  refine Spec.andThen (applyTransformPlugin_spec descriptor offset length) fun response => ?_
  cases response.contentChanged with
  | false => exact Spec.throws fun _ here => At.toExtends here
  | true =>
    refine Spec.andThen getComputedFileSize_spec fun _ => ?_
    exact Spec.lifts (fun _ _ _ here => here) (fun _ _ here => here.toExtends)

end Requests
end OmegaEdit.Ai
