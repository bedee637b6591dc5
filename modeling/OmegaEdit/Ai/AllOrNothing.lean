import OmegaEdit.Ai.Requests

/-! A change log is applied as a whole or not at all. The replay keeps the changes of the start as
a prefix, whichever request fails and wherever a batch is cut off, so a restore to the number of
changes at the start gives back the session; and a replay that gets to its end has gone through
all entries in order. -/
namespace OmegaEdit.Ai
open Utf16 ChangeLog Effects
variable {value : Text} {name : String} {pre : World → Prop} {failed : Failure → World → Prop}
  {world : World}

/-- The number an entry gives as a decimal. -/
def entryNumber (text : Text) : Nat := (Decimal.parse text).getD 0

def replayEntry (plugins : Plugins) (content : List Byte) (entry : NormalizedEntry) : List Byte :=
  let offset := entryNumber entry.offset
  let length := entryNumber entry.length
  let data := hexBytes entry.data
  match entry.kind with
  | .insert => Splice.splice content offset 0 data
  | .delete => Splice.splice content offset length []
  | .overwrite => Splice.splice content offset data.length data
  | .replace => Splice.splice content offset length data
  | .transform =>
    match entry.transformDescriptor with
    | some descriptor => plugins descriptor offset length content
    | none => content

def replayed (plugins : Plugins) (entries : List NormalizedEntry) (content : List Byte) :
    List Byte :=
  entries.foldl (replayEntry plugins) content

section Replay
variable {env : Environment} {start : RemoteSession} {content : List Byte} {applied : Nat}

lemma normalized_eq {number : Nat}
    (normalized : normalizeNonNegativeInt64ForClient value name = .ok number) :
    entryNumber value = number := by
  rw [normalizeNonNegativeInt64ForClient] at normalized
  rw [entryNumber]
  cases parsed : Decimal.parse value with
  | none =>
    rw [parsed] at normalized
    cases normalized
  | some found =>
    rw [parsed] at normalized
    dsimp only at normalized
    split at normalized
    · cases normalized
    split at normalized
    · cases normalized
    · cases normalized
      rfl

lemma normalizing {α : Type} {post : α → World → Prop} {next : Nat → Toolkit α}
    (fails : ∀ fault world, pre world → failed fault world)
    (goes : Spec pre (next (entryNumber value)) post failed) :
    Spec pre (MonadExcept.ofExcept (normalizeNonNegativeInt64ForClient value name) >>= next) post
      failed := by
  cases normalized : normalizeNonNegativeInt64ForClient value name with
  | ok number =>
    rw [normalized_eq normalized] at goes
    exact goes
  | error fault => exact fun world holds => fails _ world holds

lemma applyChange_spec (change : NormalizedEntry) :
    Spec (At env.plugins start content applied) (applyChange env change)
      (fun _ => At env.plugins start (replayEntry env.plugins content change) applied)
      (fun _ => Extends start) := by
  refine normalizing At.fails (normalizing At.fails ?_)
  rw [replayEntry]
  cases change.kind with
  | insert => exact (insert_spec _ _).discards
  | delete =>
    refine Spec.discards ((del_spec _ _).weaken (fun _ here => here) (fun _ _ deleted => deleted.2)
      (fun _ _ grown => grown))
  | overwrite => exact (overwrite_spec _ _).discards
  | replace => exact (replace_spec _ _ _).discards
  | transform =>
    cases change.transformDescriptor with
    | none => exact Spec.throws fun _ here => At.toExtends here
    | some descriptor => exact applyTransform_spec descriptor _ _

lemma applyAndCountChange_spec (change : NormalizedEntry) :
    Spec (At env.plugins start content applied) (applyAndCountChange env change)
      (fun _ => At env.plugins start (replayEntry env.plugins content change) (applied + 1))
      (fun _ => Extends start) := by
  refine Spec.andThen (applyChange_spec change) fun _ => Spec.updates fun world here => ?_
  exact ⟨⟨here.original, here.changes⟩, here.content_eq, congrArg (· + 1) here.applied_eq⟩

/-- The entries that have been gone through so far. -/
def Reached (env : Environment) (start : RemoteSession) (done : List NormalizedEntry) :
    World → Prop :=
  At env.plugins start (replayed env.plugins done (start.content env.plugins)) done.length

lemma reached_snoc (change : NormalizedEntry) (done : List NormalizedEntry) :
    Spec (Reached env start done) (applyAndCountChange env change)
      (fun _ => Reached env start (done ++ [change])) (fun _ => Extends start) := by
  have applies : Spec (Reached env start done) _ _ _ := applyAndCountChange_spec change
  simpa only [Reached, replayed, List.foldl_append, List.foldl_cons, List.foldl_nil,
    List.length_append, List.length_cons, List.length_nil] using applies

lemma flushBatch_spec (batch done : List NormalizedEntry) :
    Spec (Reached env start done) (flushBatch env batch)
      (fun _ => Reached env start (done ++ batch)) (fun _ => Extends start) := by
  rw [flushBatch]
  split
  · next empty =>
    rw [List.isEmpty_iff.mp empty, List.append_nil]
    exact Spec.returns fun _ here => here
  · exact runSessionTransaction_spec
      (Spec.loop (fun done change => reached_snoc change done) batch done)

/-- The loop: the entries behind it are those gone through and those still pending. -/
lemma replayEntries_spec (entries pending done : List NormalizedEntry) :
    Spec (Reached env start done) (replayEntries env pending entries)
      (fun left world => ∃ front, front ++ left = done ++ (pending ++ entries) ∧
        Reached env start front world) (fun _ => Extends start) := by
  induction entries generalizing pending done with
  | nil =>
    rw [List.append_nil]
    exact Spec.returns fun _ here => ⟨done, rfl, here⟩
  | cons change rest ih =>
    rw [replayEntries]
    split
    · refine Spec.andThen (flushBatch_spec pending done) fun _ => ?_
      refine Spec.andThen (reached_snoc change _) fun _ => ?_
      have later := ih [] (done ++ pending ++ [change])
      simpa only [List.nil_append, List.append_assoc, List.singleton_append] using later
    split
    · refine Spec.andThen (flushBatch_spec (pending ++ [change]) done) fun _ => ?_
      have later := ih [] (done ++ (pending ++ [change]))
      simpa only [List.nil_append, List.append_assoc, List.singleton_append] using later
    · have later := ih (pending ++ [change]) done
      simpa only [List.append_assoc, List.singleton_append] using later

lemma getChangeLogFingerprint_spec {algorithm pluginId : Text} (steady : Steady pre)
    (fails : ∀ fault world, pre world → failed fault world) :
    Spec pre (getChangeLogFingerprint env algorithm pluginId)
      (fun fingerprint world => pre world ∧
        env.fingerprint algorithm pluginId (world.session.content env.plugins) = some fingerprint)
      failed := by
  refine Spec.andThen (query_spec steady fails) fun answer => ?_
  obtain ⟨size, fingerprint⟩ := answer
  refine requiring (fun _ asked => fails _ _ asked.1) (Spec.returns ?_)
  rintro world ⟨holds, _, answered⟩
  obtain ⟨found, digested, same⟩ := Option.map_eq_some_iff.mp answered
  cases same
  exact ⟨holds, digested⟩

lemma getFinalFingerprint_spec (parsed : ParsedChangeLog) (steady : Steady pre) :
    Spec pre (getFinalFingerprint env parsed) (fun _ => pre) failed := by
  refine Spec.catching (Spec.andThen (getChangeLogFingerprint_spec steady fun _ _ holds => holds)
    fun _ => Spec.returns fun _ asked => asked.1) fun _ => ?_
  exact Spec.returns fun _ holds => holds

def Matches (env : Environment) (expected : NormalizedFingerprint) (content : List Byte) : Prop :=
  ∃ actual, env.fingerprint expected.algorithm expected.pluginId content = some actual ∧
    fingerprintsMatch actual expected = true

lemma assertCurrentSessionFingerprint_spec (expected : NormalizedFingerprint) (steady : Steady pre)
    (fails : ∀ fault world, pre world → failed fault world) :
    Spec pre (assertCurrentSessionFingerprint env expected)
      (fun _ world => pre world ∧ Matches env expected (world.session.content env.plugins))
      failed := by
  refine Spec.andThen (getChangeLogFingerprint_spec steady fails) fun actual => ?_
  split
  · next same => exact Spec.returns fun _ asked => ⟨asked.1, actual, asked.2, same⟩
  · exact Spec.throws fun _ asked => fails _ _ asked.1

/-- A replay that gets to its end has gone through all entries. -/
lemma replayChangeLog_spec (parsed : ParsedChangeLog) :
    Spec (Reached env start []) (replayChangeLog env parsed)
      (fun _ world => Reached env start parsed.entries world ∧
        Matches env parsed.result.header.after (world.session.content env.plugins))
      (fun _ => Extends start) := by
  refine Spec.andThen (replayEntries_spec _ [] []) fun left => ?_
  cases parsed.replay with
  | changed yielded =>
    rintro world ⟨front, _, here⟩
    exact At.toExtends here
  | unchanged =>
    refine Spec.chosen fun front => Spec.given fun whole => ?_
    change Spec (Reached env start front) (flushBatch env left >>= fun _ =>
      assertCurrentSessionFingerprint env parsed.result.header.after) _ _
    refine Spec.andThen (flushBatch_spec left front) fun _ => ?_
    rw [whole]
    exact assertCurrentSessionFingerprint_spec _ At.steady At.fails

def Untouched (start : RemoteSession) (world : World) : Prop := world.session = start

lemma Untouched.steady : Steady (Untouched start) := fun _ same => same

lemma Untouched.reached (env : Environment) (same : Untouched start world) :
    Reached env start [] { world with appliedChangeCount := 0 } := by
  cases same
  exact ⟨⟨rfl, List.prefix_rfl⟩, rfl, rfl⟩

lemma getChangeCount_spec :
    Spec (Untouched start) (getChangeCount env)
      (fun count world => count = start.changeCount ∧ Untouched start world)
      (fun _ => Untouched start) := by
  refine Spec.andThen (query_spec Untouched.steady fun _ _ same => same) fun count => ?_
  refine (requiring_last fun _ asked => asked.1).weaken (fun _ asked => asked) ?_
    (fun _ _ same => same)
  rintro _ world ⟨rfl, same, _, answered⟩
  cases answered
  exact ⟨congrArg RemoteSession.changeCount same, same⟩

/-- A preview that inspects the session knows how many changes it has. -/
lemma createChangeLogPreview_spec (parsed : ParsedChangeLog) :
    Spec (Untouched start) (createChangeLogPreview env parsed true)
      (fun preview world => (∃ protection, preview.rollbackProtection = some protection ∧
        protection.targetChangeCount = start.changeCount) ∧ Untouched start world)
      (fun _ => Untouched start) := by
  refine Spec.andThen (getChangeLogFingerprint_spec Untouched.steady fun _ _ same => same)
    fun current => ?_
  refine Spec.andThen (getChangeCount_spec.weaken (fun _ asked => asked.1)
    (fun _ _ counted => counted) fun _ _ same => same) fun count => Spec.given fun counted => ?_
  refine Spec.andThen (query_spec Untouched.steady fun _ _ same => same) fun checkpoints => ?_
  refine Spec.andThen ((query_spec Untouched.steady fun _ _ same => same).weaken
    (fun _ asked => asked.1) (fun _ _ asked => asked.1) fun _ _ same => same) fun installed => ?_
  exact Spec.returns fun _ same => ⟨⟨_, rfl, counted⟩, same⟩

/-- The active changes are those of the start, and so is the content. -/
structure AsBefore (start : RemoteSession) (world : World) : Prop where
  original : world.session.original = start.original
  changes : world.session.changes = start.changes

lemma AsBefore.steady : Steady (AsBefore start) := fun _ same => ⟨same.original, same.changes⟩

lemma Untouched.asBefore (same : Untouched start world) : AsBefore start world := by
  cases same
  exact ⟨rfl, rfl⟩

lemma restore_spec :
    Spec (Extends start) (restore env start.changeCount) (fun _ => AsBefore start)
      (fun fault _ => fault.isChangeLogReplayError = false) := by
  intro world grown
  simp only [EStateM.run, restore]
  cases env.outcome world.requests with
  | answered => exact ⟨grown.original, (List.prefix_iff_eq_take.mp grown.changes).symm⟩
  | refused => rfl
  | lost => rfl

lemma rollbackSessionToChangeCount_spec :
    Spec (Extends start) (rollbackSessionToChangeCount env start.changeCount)
      (fun _ => AsBefore start) (fun fault _ => fault.isChangeLogReplayError = false) := by
  have restored : Spec (Extends start) (restoreToChangeCount env start.changeCount)
      (fun _ => AsBefore start) (fun fault _ => fault.isChangeLogReplayError = false) := by
    refine requiring (fun _ _ => rfl) (Spec.andThen restore_spec fun response => ?_)
    refine requiring (fun _ _ => rfl) (requiring (fun _ _ => rfl) (requiring (fun _ _ => rfl)
      (requiring (fun _ _ => rfl) ?_)))
    exact Spec.returns fun _ same => same
  refine Spec.andThen restored fun response => ?_
  split
  · exact Spec.throws fun _ _ => rfl
  · exact Spec.returns fun _ same => same

def Failure.ReportsFailedRollback (failure : Failure) : Prop :=
  failure.rollback.bind Rollback.succeeded = some false

/-- An error of the replay is never the end of it: the session is rolled back, or the error says
that this failed. -/
lemma rollBackReplay_spec (parsed : ParsedChangeLog) (preview : ChangeLogPreview)
    (error : Failure) :
    Spec (Extends start) (rollBackReplay env parsed preview start.changeCount error)
      (fun _ _ => False)
      (fun failure world => failure.ReportsFailedRollback ∨ AsBefore start world) := by
  have rolls : Spec (Extends start) (do
      let rolledBack ← rollbackSessionToChangeCount env start.changeCount
      let finalFingerprint ← getFinalFingerprint env parsed
      let world ← get
      throw (.replay error (createReplayResult parsed preview false world.appliedChangeCount
        ⟨true, some true, some rolledBack, some start.changeCount⟩ finalFingerprint)) :
        Toolkit Unit)
      (fun _ _ => False)
      (fun failure world => failure.isChangeLogReplayError = false ∨ AsBefore start world) := by
    refine Spec.andThen (rollbackSessionToChangeCount_spec.weaken (fun _ grown => grown)
      (fun _ _ same => same) fun _ _ other => .inl other) fun rolledBack => ?_
    refine Spec.andThen (getFinalFingerprint_spec parsed AsBefore.steady) fun finalFingerprint => ?_
    refine Spec.andThen (Spec.reads _) fun world => Spec.throws ?_
    rintro _ ⟨_, same⟩
    exact .inr same
  refine Spec.catching rolls fun rollbackError => ?_
  split
  · next isReplayError =>
    refine Spec.throws fun world outcome => .inr ?_
    rcases outcome with other | same
    · rw [isReplayError] at other
      cases other
    · exact same
  · have final : Spec (fun _ => True) (getFinalFingerprint env parsed) (fun _ _ => True)
        (fun failure world => failure.ReportsFailedRollback ∨ AsBefore start world) :=
      getFinalFingerprint_spec parsed fun _ _ => trivial
    refine Spec.andThen (final.weaken (fun _ _ => trivial) (fun _ _ holds => holds)
      fun _ _ outcome => outcome) fun finalFingerprint => ?_
    refine Spec.andThen (Spec.reads _) fun world => Spec.throws fun _ _ => ?_
    exact .inl rfl

structure Applied (env : Environment) (start : RemoteSession) (parsed : ParsedChangeLog)
    (result : ApplyChangeLogResult) (world : World) : Prop where
  applied : result.applied = true
  appliedCount : result.appliedCount = parsed.entries.length
  content : world.session.content env.plugins =
    replayed env.plugins parsed.entries (start.content env.plugins)
  fingerprint : Matches env parsed.result.header.after (world.session.content env.plugins)

lemma applyParsed_spec (parsed : ParsedChangeLog) (preview : ChangeLogPreview) :
    Spec (Untouched start) (applyParsed env parsed preview start.changeCount)
      (Applied env start parsed)
      (fun failure world => failure.ReportsFailedRollback ∨ AsBefore start world) := by
  refine Spec.andThen (Spec.updates fun world same => Untouched.reached env same) fun _ => ?_
  refine Spec.andThen (Spec.catching (replayChangeLog_spec parsed) fun error =>
    (rollBackReplay_spec parsed preview error).weaken (fun _ grown => grown)
      (fun _ _ never => never.elim) (fun _ _ outcome => outcome)) fun _ => ?_
  refine Spec.andThen ((Spec.reads _).weaken (fun _ ended => ended) (fun counted _ ended =>
    And.intro (ended.1 ▸ ended.2.1.applied_eq : counted.appliedChangeCount = _) ended.2)
    fun _ _ outcome => outcome) fun counted => Spec.given fun count => ?_
  refine Spec.andThen (getFinalFingerprint_spec parsed fun _ ended => ⟨At.sent ended.1, ended.2⟩)
    fun finalFingerprint => Spec.returns ?_
  rintro world ⟨reached, matched⟩
  exact ⟨rfl, count, reached.content_eq, matched⟩

/-- What a call that rejects leaves: the content and the active changes of the start, unless its
error says that the rollback failed. -/
def Rejected (env : Environment) (start : RemoteSession) (failure : Failure) (world : World) :
    Prop :=
  failure.ReportsFailedRollback ∨ (world.session.content env.plugins = start.content env.plugins ∧
      world.session.changeCount = start.changeCount)

lemma AsBefore.rejected (same : AsBefore start world) (failure : Failure) :
    Rejected env start failure world := by
  refine .inr ⟨?_, ?_⟩
  · rw [RemoteSession.content, same.original, same.changes, RemoteSession.content]
  · rw [RemoteSession.changeCount, same.changes, RemoteSession.changeCount]

/-- What a call that resolves leaves; a dry run leaves the session alone. -/
def Resolved (env : Environment) (start : RemoteSession) (request : ApplyChangeLogRequest)
    (result : ApplyChangeLogResult) (world : World) : Prop :=
  if request.dryRun then world.session = start ∧ result.applied = false ∧ result.appliedCount = 0
  else ∃ parsed, readChangeLogRequest env request = .ok parsed ∧
    Applied env start parsed result world

lemma Untouched.rejected (failure : Failure) (world : World) (same : Untouched start world) :
    Rejected env start failure world :=
  same.asBefore.rejected failure

lemma applyChangeLog_spec (env : Environment) (start : RemoteSession)
    (request : ApplyChangeLogRequest) :
    Spec (Untouched start) (applyChangeLog env request) (Resolved env start request)
      (Rejected env start) := by
  have reads : Spec (Untouched start)
      (MonadExcept.ofExcept (readChangeLogRequest env request) : Toolkit ParsedChangeLog)
      (fun parsed world => readChangeLogRequest env request = .ok parsed ∧ Untouched start world)
      (Rejected env start) :=
    Spec.lifts (fun _ read _ same => ⟨read, same⟩) Untouched.rejected
  refine Spec.andThen reads fun parsed => Spec.given fun read => ?_
  split
  · next dry =>
    -- A preview without inspection sends no request.
    intro world same
    change Resolved env start request _ world
    rw [Resolved, if_pos dry]
    exact ⟨same, rfl, rfl⟩
  · next wet =>
    refine Spec.andThen (query_spec Untouched.steady Untouched.rejected) fun _ => ?_
    refine Spec.andThen ((createChangeLogPreview_spec parsed).weaken (fun _ asked => asked.1)
      (fun _ _ previewed => previewed) Untouched.rejected) fun preview => Spec.given ?_
    rintro ⟨protection, found, target⟩
    rw [startingChangeCount, found]
    change Spec (Untouched start) (if !preview.canApply then _ else _) _ _
    split
    · exact Spec.throws fun world same => Untouched.rejected _ world same
    · rw [target]
      refine (applyParsed_spec parsed preview).weaken (fun _ same => same) ?_ ?_
      · intro result world applied
        rw [Resolved, if_neg wet]
        exact ⟨parsed, read, applied⟩
      · rintro failure world (failed | same)
        · exact .inl failed
        · exact same.rejected failure

end Replay

/-- Applying a change log is all or nothing: for every session, every request and every choice of
the requests that fail, those with a lost answer included. -/
theorem applyChangeLog_all_or_nothing (env : Environment) (request : ApplyChangeLogRequest)
    (world : World) :
    match (applyChangeLog env request).run world with
    | .ok result final => Resolved env world.session request result final
    | .error failure final => Rejected env world.session failure final := by
  have ended := applyChangeLog_spec env world.session request world rfl
  cases outcome : (applyChangeLog env request).run world with
  | ok result final | error failure final =>
    rw [outcome] at ended
    exact ended

end OmegaEdit.Ai
