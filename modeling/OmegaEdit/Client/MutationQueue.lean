import Mathlib.Order.Interval.Finset.Nat
import OmegaEdit.Library.Threads

/-! The queue of session mutations. A call of `enqueueSessionMutation` is made by the work of some
task body, or outside of all; work may go on after its body has settled. The async context of a
body holds the session id of that body. A tail is the list of the calls whose signals it awaits. -/
namespace OmegaEdit.Client.MutationQueue

inductive Status where
  | waiting
  | running
  | settled (rejected : Bool)
deriving DecidableEq, Repr

structure Call where
  sessionId : String
  /-- The bodies that the call was made from, directly or through others, innermost first. -/
  callers : List Nat
  /-- What the call awaits before its task; nothing at all if it runs inside of another task. -/
  priorTail : Option (List Nat)
  status : Status
deriving DecidableEq, Repr

def Call.topLevel (call : Call) : Bool := call.priorTail.isSome

def Status.isSettled : Status → Bool
  | settled _ => true
  | _ => false

structure Queue where
  calls : List Call
  sessionMutationTails : String → Option (List Nat)

namespace Queue
variable (queue : Queue)

def start : Queue := ⟨[], fun _ => none⟩

/-- The session id in the async context of the caller. -/
def getStore (caller : Option Nat) : Option String :=
  caller.bind fun index => (queue.calls[index]?).map Call.sessionId

def callersOf : Option Nat → List Nat
  | none => []
  | some index => index :: ((queue.calls[index]?).map Call.callers).getD []

/-- The work of a body makes calls only once the body has started. -/
def started : Option Nat → Bool
  | none => true
  | some index => ((queue.calls[index]?).map fun call => call.status != .waiting).getD false

def settled (index : Nat) : Bool :=
  ((queue.calls[index]?).map fun call => call.status.isSettled).getD false

def setTail (sessionId : String) (tail : Option (List Nat)) : String → Option (List Nat) :=
  fun other => if other = sessionId then tail else queue.sessionMutationTails other

def setStatus (index : Nat) (status : Status) : List Call :=
  queue.calls.modify index fun call => { call with status := status }

def priorTail (sessionId : String) : List Nat := (queue.sessionMutationTails sessionId).getD []

/-- The part of a call before its first await. -/
def enqueueSessionMutation (caller : Option Nat) (sessionId : String) : Queue :=
  if queue.getStore caller = some sessionId then
    { queue with calls := queue.calls ++ [⟨sessionId, queue.callersOf caller, none, .running⟩] }
  else
    { calls := queue.calls ++
        [⟨sessionId, queue.callersOf caller, some (queue.priorTail sessionId), .waiting⟩]
      sessionMutationTails :=
        queue.setTail sessionId (some (queue.priorTail sessionId ++ [queue.calls.length])) }

/-- What is left to do for a call when its task has settled. -/
def release (index : Nat) (call : Call) : String → Option (List Nat) :=
  match call.priorTail with
  | none => queue.sessionMutationTails
  | some prior =>
    if queue.sessionMutationTails call.sessionId = some (prior ++ [index]) then
      queue.setTail call.sessionId none
    else queue.sessionMutationTails

end Queue

inductive Event where
  | call (caller : Option Nat) (sessionId : String)
  | start (index : Nat)
  | settle (index : Nat) (rejected : Bool)
deriving DecidableEq, Repr

def Queue.step (queue : Queue) : Event → Except Unit (Queue × Unit)
  | .call caller sessionId =>
    if queue.started caller then .ok (queue.enqueueSessionMutation caller sessionId, ())
    else .error ()
  | .start index =>
    match queue.calls[index]? with
    | some ⟨_, _, some prior, .waiting⟩ =>
      if prior.all queue.settled then
        .ok ({ queue with calls := queue.setStatus index .running }, ())
      else .error ()
    | _ => .error ()
  | .settle index rejected =>
    match queue.calls[index]? with
    | some call =>
      if call.status = .running then
        .ok (⟨queue.setStatus index (.settled rejected), queue.release index call⟩, ())
      else .error ()
    | none => .error ()

/-- What a step can do. -/
inductive Moves (queue : Queue) : Event → Queue → Prop where
  | nested {caller : Option Nat} {sessionId : String} (begun : queue.started caller = true)
      (store : queue.getStore caller = some sessionId) :
      Moves queue (.call caller sessionId)
        ⟨queue.calls ++ [⟨sessionId, queue.callersOf caller, none, .running⟩],
          queue.sessionMutationTails⟩
  | queued {caller : Option Nat} {sessionId : String} (begun : queue.started caller = true)
      (store : queue.getStore caller ≠ some sessionId) :
      Moves queue (.call caller sessionId)
        ⟨queue.calls ++
          [⟨sessionId, queue.callersOf caller, some (queue.priorTail sessionId), .waiting⟩],
          queue.setTail sessionId (some (queue.priorTail sessionId ++ [queue.calls.length]))⟩
  | start {index : Nat} {call : Call} {prior : List Nat} (found : queue.calls[index]? = some call)
      (queued : call.priorTail = some prior) (waiting : call.status = .waiting)
      (released : ∀ other ∈ prior, queue.settled other = true) :
      Moves queue (.start index) ⟨queue.setStatus index .running, queue.sessionMutationTails⟩
  | settle {index : Nat} {call : Call} {rejected : Bool} (found : queue.calls[index]? = some call)
      (running : call.status = .running) :
      Moves queue (.settle index rejected)
        ⟨queue.setStatus index (.settled rejected), queue.release index call⟩

variable {queue next : Queue} {event : Event} {done : Unit}

lemma step_moves (stepped : queue.step event = .ok (next, done)) : Moves queue event next := by
  cases event with
  | call caller sessionId =>
    rw [Queue.step] at stepped
    split at stepped
    · next begun =>
      cases stepped
      rw [Queue.enqueueSessionMutation]
      split
      · next store => exact .nested begun store
      · next store => exact .queued begun store
    · cases stepped
  | start index =>
    rw [Queue.step] at stepped
    split at stepped
    · next found =>
      split at stepped
      · next released =>
        cases stepped
        exact .start found rfl rfl (List.all_eq_true.mp released)
      · cases stepped
    · cases stepped
  | settle index rejected =>
    rw [Queue.step] at stepped
    split at stepped
    · next call found =>
      split at stepped
      · next running =>
        cases stepped
        exact .settle found running
      · cases stepped
    · cases stepped

section Places
variable {index place : Nat} {call : Call} {status : Status}

lemma settled_iff : queue.settled index = true ↔
    ∃ call, queue.calls[index]? = some call ∧ call.status.isSettled = true := by
  rw [Queue.settled]
  cases queue.calls[index]? <;> simp

/-- A call after a change of status: only the status at that index may differ. -/
lemma getElem?_setStatus (found : (queue.setStatus index status)[place]? = some call) :
    ∃ before, queue.calls[place]? = some before ∧ call.sessionId = before.sessionId ∧
      call.callers = before.callers ∧ call.priorTail = before.priorTail ∧
      (place ≠ index ∧ call = before ∨ place = index ∧ call.status = status) := by
  rw [Queue.setStatus, List.getElem?_modify] at found
  split at found
  · next same =>
    obtain ⟨before, there, rfl⟩ := Option.map_eq_some_iff.mp found
    exact ⟨before, there, rfl, rfl, rfl, .inr ⟨same.symm, rfl⟩⟩
  · next differs =>
    obtain ⟨before, there, rfl⟩ := Option.map_eq_some_iff.mp found
    exact ⟨before, there, rfl, rfl, rfl, .inl ⟨Ne.symm differs, rfl⟩⟩

lemma setStatus_getElem? (index : Nat) (status : Status) (found : queue.calls[place]? = some call) :
    ∃ after, (queue.setStatus index status)[place]? = some after ∧
      after.sessionId = call.sessionId ∧ after.priorTail = call.priorTail ∧
      (place ≠ index ∧ after = call ∨ place = index ∧ after.status = status) := by
  rw [Queue.setStatus, List.getElem?_modify, found]
  split
  · next same => exact ⟨_, rfl, rfl, rfl, .inr ⟨same.symm, rfl⟩⟩
  · next differs => exact ⟨_, rfl, rfl, rfl, .inl ⟨Ne.symm differs, rfl⟩⟩

lemma settled_setStatus (progress : ∀ call, queue.calls[index]? = some call →
      call.status.isSettled = true → status.isSettled = true)
    (settled : queue.settled place = true) (tails : String → Option (List Nat)) :
    Queue.settled ⟨queue.setStatus index status, tails⟩ place = true := by
  obtain ⟨call, found, ended⟩ := settled_iff.mp settled
  obtain ⟨after, there, _, _, ⟨_, rfl⟩ | ⟨rfl, changed⟩⟩ := setStatus_getElem? index status found
  · exact settled_iff.mpr ⟨_, there, ended⟩
  · exact settled_iff.mpr ⟨_, there, changed ▸ progress call found ended⟩

lemma getElem?_grown {added : Call} (found : queue.calls[index]? = some call) :
    (queue.calls ++ [added])[index]? = some call :=
  (List.getElem?_append_left (List.getElem?_eq_some_iff.mp found).1).trans found

lemma settled_snoc {added : Call} (settled : queue.settled place = true)
    (tails : String → Option (List Nat)) :
    Queue.settled ⟨queue.calls ++ [added], tails⟩ place = true := by
  obtain ⟨call, found, ended⟩ := settled_iff.mp settled
  exact settled_iff.mpr ⟨call, getElem?_grown found, ended⟩

end Places

/-- A top-level call for a session. -/
def Queue.QueuedFor (queue : Queue) (sessionId : String) (index : Nat) : Prop :=
  ∃ call, queue.calls[index]? = some call ∧ call.topLevel = true ∧ call.sessionId = sessionId

lemma queuedFor_snoc {sessionId : String} {index : Nat} {added : Call}
    {tails : String → Option (List Nat)} (queued : queue.QueuedFor sessionId index) :
    Queue.QueuedFor ⟨queue.calls ++ [added], tails⟩ sessionId index := by
  obtain ⟨call, found, rest⟩ := queued
  exact ⟨call, getElem?_grown found, rest⟩

lemma queuedFor_setStatus {sessionId : String} {index place : Nat} {status : Status}
    {tails : String → Option (List Nat)} (queued : queue.QueuedFor sessionId place) :
    Queue.QueuedFor ⟨queue.setStatus index status, tails⟩ sessionId place := by
  obtain ⟨call, found, top, session⟩ := queued
  obtain ⟨after, there, same, prior, _⟩ := setStatus_getElem? index status found
  exact ⟨after, there, (congrArg Option.isSome prior).trans top, same.trans session⟩

/-- The order of the top-level calls, which holds in every run. -/
structure Ordered (queue : Queue) : Prop where
  pending : ∀ (index : Nat) call, queue.calls[index]? = some call → call.topLevel = true →
    call.status.isSettled = false →
    ∃ tail, queue.sessionMutationTails call.sessionId = some tail ∧ index ∈ tail
  tails : ∀ sessionId tail, queue.sessionMutationTails sessionId = some tail →
    ∀ index ∈ tail, queue.QueuedFor sessionId index
  prior : ∀ (index : Nat) call prior, queue.calls[index]? = some call →
    call.priorTail = some prior →
    ∀ other ∈ prior, other < index ∧ queue.QueuedFor call.sessionId other
  behind : ∀ (index : Nat) call prior, queue.calls[index]? = some call →
    call.priorTail = some prior → ∀ (earlier : Nat) other, earlier < index →
    queue.calls[earlier]? = some other → other.topLevel = true →
    other.sessionId = call.sessionId → earlier ∈ prior ∨ other.status.isSettled = true
  begun : ∀ (index : Nat) call prior, queue.calls[index]? = some call →
    call.priorTail = some prior → call.status ≠ .waiting →
    ∀ other ∈ prior, queue.settled other = true
  callers : ∀ (index : Nat) call, queue.calls[index]? = some call → ∀ caller ∈ call.callers,
    ∃ other, queue.calls[caller]? = some other ∧ other.status ≠ .waiting
  waiting : ∀ (index : Nat) call, queue.calls[index]? = some call → call.status = .waiting →
    call.topLevel = true

lemma start_ordered : Ordered .start := ⟨nofun, nofun, nofun, nofun, nofun, nofun, nofun⟩

lemma callersOf_begun (ordered : Ordered queue) {caller : Option Nat}
    (begun : queue.started caller = true) : ∀ index ∈ queue.callersOf caller,
    ∃ other, queue.calls[index]? = some other ∧ other.status ≠ .waiting := by
  cases caller with
  | none => exact nofun
  | some first =>
    rw [Queue.started] at begun
    cases found : queue.calls[first]? with
    | none =>
      rw [found] at begun
      cases begun
    | some call =>
      rw [found, Option.map_some, Option.getD_some, bne_iff_ne] at begun
      intro index member
      rw [Queue.callersOf, found, Option.map_some, Option.getD_some, List.mem_cons] at member
      rcases member with rfl | inner
      · exact ⟨call, found, begun⟩
      · exact ordered.callers first call found index inner

lemma Ordered.priorTail (ordered : Ordered queue) {sessionId : String} {index : Nat}
    (member : index ∈ queue.priorTail sessionId) : queue.QueuedFor sessionId index := by
  rw [Queue.priorTail] at member
  cases known : queue.sessionMutationTails sessionId with
  | none =>
    rw [known] at member
    cases member
  | some tail =>
    rw [known] at member
    exact ordered.tails sessionId tail known index member

/-- One more call, which awaits the tail of its session unless it runs inside of a task. -/
lemma Ordered.snoc (ordered : Ordered queue) {added : Call} {tails : String → Option (List Nat)}
    (callers : ∀ caller ∈ added.callers,
      ∃ other, queue.calls[caller]? = some other ∧ other.status ≠ .waiting)
    (waits : ∀ prior, added.priorTail = some prior →
      prior = queue.priorTail added.sessionId ∧ added.status = .waiting)
    (others : ∀ sessionId tail, queue.sessionMutationTails sessionId = some tail →
      ∃ longer, tails sessionId = some longer ∧ ∀ index ∈ tail, index ∈ longer)
    (own : added.topLevel = true →
      ∃ tail, tails added.sessionId = some tail ∧ queue.calls.length ∈ tail)
    (listed : ∀ sessionId tail, tails sessionId = some tail → ∀ index ∈ tail,
      queue.QueuedFor sessionId index ∨
        index = queue.calls.length ∧ added.topLevel = true ∧ added.sessionId = sessionId)
    (nested : added.status = .waiting → added.topLevel = true) :
    Ordered ⟨queue.calls ++ [added], tails⟩ := by
  have inside {index : Nat} {call : Call} (found : queue.calls[index]? = some call) :
      index < queue.calls.length := (List.getElem?_eq_some_iff.mp found).1
  refine ⟨?_, ?_, ?_, ?_, ?_, ?_, ?_⟩
  · intro index call found top unsettled
    rcases Threads.getElem?_snoc found with old | ⟨rfl, rfl⟩
    · obtain ⟨tail, known, member⟩ := ordered.pending index call old top unsettled
      obtain ⟨longer, there, includes⟩ := others _ tail known
      exact ⟨longer, there, includes index member⟩
    · exact own top
  · intro sessionId tail known index member
    rcases listed sessionId tail known index member with queued | ⟨rfl, top, session⟩
    · exact queuedFor_snoc queued
    · exact ⟨added, List.getElem?_concat_length, top, session⟩
  · intro index call prior found queued other member
    rcases Threads.getElem?_snoc found with old | ⟨rfl, rfl⟩
    · obtain ⟨lower, known⟩ := ordered.prior index call prior old queued other member
      exact ⟨lower, queuedFor_snoc known⟩
    · obtain ⟨rfl, _⟩ := waits prior queued
      have known := ordered.priorTail member
      have ⟨_, there, _⟩ := known
      exact ⟨inside there, queuedFor_snoc known⟩
  · intro index call prior found queued earlier other before there top same
    rcases Threads.getElem?_snoc found with old | ⟨rfl, rfl⟩
    · rcases Threads.getElem?_snoc there with known | ⟨rfl, rfl⟩
      · exact ordered.behind index call prior old queued earlier other before known top same
      · exact absurd (inside old) (Nat.lt_asymm before)
    · rcases Threads.getElem?_snoc there with known | ⟨rfl, rfl⟩
      · -- what has not settled is in the tail of the session
        cases unsettled : other.status.isSettled with
        | true => exact .inr rfl
        | false =>
          obtain ⟨tail, listed, member⟩ := ordered.pending earlier other known top unsettled
          obtain ⟨rfl, _⟩ := waits prior queued
          rw [Queue.priorTail, ← same, listed]
          exact .inl member
      · exact absurd before (lt_irrefl _)
  · intro index call prior found queued started other member
    rcases Threads.getElem?_snoc found with old | ⟨rfl, rfl⟩
    · exact settled_snoc (ordered.begun index call prior old queued started other member) _
    · exact absurd (waits prior queued).2 started
  · intro index call found caller member
    have known : ∃ other, queue.calls[caller]? = some other ∧ other.status ≠ .waiting := by
      rcases Threads.getElem?_snoc found with old | ⟨rfl, rfl⟩
      · exact ordered.callers index call old caller member
      · exact callers caller member
    obtain ⟨other, there, started⟩ := known
    exact ⟨other, getElem?_grown there, started⟩
  · intro index call found waiting
    rcases Threads.getElem?_snoc found with old | ⟨rfl, rfl⟩
    · exact ordered.waiting index call old waiting
    · exact nested waiting

/-- A call goes on: it starts when its tail is resolved, or its task settles. -/
lemma Ordered.setStatus (ordered : Ordered queue) {index : Nat} {call : Call} {status : Status}
    {tails : String → Option (List Nat)} (found : queue.calls[index]? = some call)
    (unsettled : call.status.isSettled = false) (moving : status ≠ .waiting)
    (resolved : ∀ prior, call.priorTail = some prior → ∀ other ∈ prior, queue.settled other = true)
    (others : ∀ (place : Nat) other, queue.calls[place]? = some other → other.topLevel = true →
      other.status.isSettled = false → place = index ∧ status.isSettled = true ∨
        tails other.sessionId = queue.sessionMutationTails other.sessionId)
    (fewer : ∀ sessionId tail, tails sessionId = some tail →
      queue.sessionMutationTails sessionId = some tail) :
    Ordered ⟨queue.setStatus index status, tails⟩ := by
  have kept {place : Nat} (settled : queue.settled place = true) :
      Queue.settled ⟨queue.setStatus index status, tails⟩ place = true := by
    refine settled_setStatus ?_ settled tails
    intro same there ended
    obtain rfl := Option.some.inj (found.symm.trans there)
    cases unsettled.symm.trans ended
  refine ⟨?_, ?_, ?_, ?_, ?_, ?_, ?_⟩
  · intro place after there top pending
    obtain ⟨before, old, session, _, prior, change⟩ := getElem?_setStatus there
    have beforeTop : before.topLevel = true := (congrArg Option.isSome prior).symm.trans top
    have beforePending : before.status.isSettled = false := by
      rcases change with ⟨_, rfl⟩ | ⟨rfl, _⟩
      · exact pending
      · obtain rfl := Option.some.inj (found.symm.trans old)
        exact unsettled
    obtain ⟨tail, known, member⟩ := ordered.pending place before old beforeTop beforePending
    refine ⟨tail, ?_, member⟩
    rw [session, ← known]
    rcases others place before old beforeTop beforePending with ⟨here, ended⟩ | same
    · rcases change with ⟨differs, _⟩ | ⟨_, changed⟩
      · exact absurd here differs
      · rw [changed, ended] at pending
        cases pending
    · exact same
  · intro sessionId tail known place member
    exact queuedFor_setStatus (ordered.tails sessionId tail (fewer sessionId tail known) place member)
  · intro place after prior there queued other member
    obtain ⟨before, old, session, _, same, _⟩ := getElem?_setStatus there
    obtain ⟨lower, known⟩ :=
      ordered.prior place before prior old (same.symm.trans queued) other member
    rw [session]
    exact ⟨lower, queuedFor_setStatus known⟩
  · intro place after prior there queued earlier other lower known top session
    obtain ⟨before, old, sessionBefore, _, same, _⟩ := getElem?_setStatus there
    obtain ⟨otherBefore, otherOld, otherSession, _, otherPrior, change⟩ := getElem?_setStatus known
    have otherTop : otherBefore.topLevel = true :=
      (congrArg Option.isSome otherPrior).symm.trans top
    rcases ordered.behind place before prior old (same.symm.trans queued) earlier otherBefore lower
      otherOld otherTop (otherSession.symm.trans (session.trans sessionBefore)) with member | ended
    · exact .inl member
    · rcases change with ⟨_, rfl⟩ | ⟨rfl, _⟩
      · exact .inr ended
      · obtain rfl := Option.some.inj (found.symm.trans otherOld)
        cases unsettled.symm.trans ended
  · intro place after prior there queued started other member
    obtain ⟨before, old, _, _, same, change⟩ := getElem?_setStatus there
    rcases change with ⟨_, rfl⟩ | ⟨rfl, _⟩
    · exact kept (ordered.begun place after prior old queued started other member)
    · obtain rfl := Option.some.inj (found.symm.trans old)
      exact kept (resolved prior (same.symm.trans queued) other member)
  · intro place after there caller member
    obtain ⟨before, old, _, callers, _, _⟩ := getElem?_setStatus there
    obtain ⟨other, known, started⟩ := ordered.callers place before old caller (callers ▸ member)
    obtain ⟨otherAfter, otherThere, _, _, ⟨_, rfl⟩ | ⟨_, changed⟩⟩ :=
      setStatus_getElem? index status known
    · exact ⟨_, otherThere, started⟩
    · exact ⟨_, otherThere, changed ▸ moving⟩
  · intro place after there waiting
    obtain ⟨before, old, _, _, prior, ⟨_, rfl⟩ | ⟨_, changed⟩⟩ := getElem?_setStatus there
    · exact ordered.waiting place after old waiting
    · exact absurd (changed.symm.trans waiting) moving

/-- A call removes only its own tail. -/
lemma release_eq (queue : Queue) (index : Nat) (call : Call) (sessionId : String) :
    queue.release index call sessionId = queue.sessionMutationTails sessionId ∨
      sessionId = call.sessionId ∧ queue.release index call sessionId = none ∧
        ∃ prior, call.priorTail = some prior ∧
          queue.sessionMutationTails sessionId = some (prior ++ [index]) := by
  cases queued : call.priorTail with
  | none =>
    simp only [Queue.release, queued]
    exact .inl trivial
  | some prior =>
    simp only [Queue.release, queued]
    split
    · next own =>
      by_cases same : sessionId = call.sessionId
      · subst same
        exact .inr ⟨rfl, if_pos rfl, prior, rfl, own⟩
      · exact .inl (if_neg same)
    · exact .inl rfl

/-- When a tail is removed, all other calls that it awaits have settled. -/
lemma Ordered.release (ordered : Ordered queue) {index : Nat} {call : Call}
    (found : queue.calls[index]? = some call) (running : call.status = .running) :
    ∀ (place : Nat) other, queue.calls[place]? = some other → other.topLevel = true →
      other.status.isSettled = false → place = index ∨
        queue.release index call other.sessionId = queue.sessionMutationTails other.sessionId := by
  intro place other there top unsettled
  rcases release_eq queue index call other.sessionId with same | ⟨_, _, prior, queued, own⟩
  · exact .inr same
  · left
    obtain ⟨tail, known, member⟩ := ordered.pending place other there top unsettled
    obtain rfl := Option.some.inj (own.symm.trans known)
    rcases List.mem_append.mp member with before | here
    · have ended := ordered.begun index call prior found queued (by rw [running]; exact nofun)
        place before
      obtain ⟨_, same, settled⟩ := settled_iff.mp ended
      obtain rfl := Option.some.inj (there.symm.trans same)
      cases unsettled.symm.trans settled
    · exact List.mem_singleton.mp here

lemma release_fewer {index : Nat} {call : Call} {sessionId : String} {tail : List Nat}
    (known : queue.release index call sessionId = some tail) :
    queue.sessionMutationTails sessionId = some tail := by
  rcases release_eq queue index call sessionId with same | ⟨_, removed, _⟩
  · exact same.symm.trans known
  · cases removed.symm.trans known

lemma Ordered.moves (ordered : Ordered queue) (moves : Moves queue event next) : Ordered next := by
  cases moves with
  | nested begun store =>
    refine ordered.snoc (callersOf_begun ordered begun) nofun ?_ nofun ?_ nofun
    · exact fun _ tail known => ⟨tail, known, fun _ member => member⟩
    · exact fun sessionId tail known index member =>
        .inl (ordered.tails sessionId tail known index member)
  | @queued caller requested begun store =>
    refine ordered.snoc (callersOf_begun ordered begun) ?_ ?_ ?_ ?_ fun _ => rfl
    · rintro prior ⟨⟩
      exact ⟨rfl, rfl⟩
    · intro sessionId tail known
      by_cases same : sessionId = requested
      · subst same
        refine ⟨_, if_pos rfl, fun index member => List.mem_append_left _ ?_⟩
        rw [Queue.priorTail, known]
        exact member
      · exact ⟨tail, (if_neg same).trans known, fun _ member => member⟩
    · exact fun _ => ⟨_, if_pos rfl, List.mem_append_right _ List.mem_cons_self⟩
    · intro sessionId tail known index member
      rw [Queue.setTail] at known
      split at known
      · next same =>
        cases known
        subst same
        rcases List.mem_append.mp member with before | here
        · exact .inl (ordered.priorTail before)
        · exact .inr ⟨List.mem_singleton.mp here, rfl, rfl⟩
      · exact .inl (ordered.tails sessionId tail known index member)
  | start found queued waiting released =>
    refine ordered.setStatus found (by rw [waiting]; rfl) nofun ?_ (fun _ _ _ _ _ => .inr rfl)
      fun _ _ => id
    intro prior same
    obtain rfl := Option.some.inj (queued.symm.trans same)
    exact released
  | settle found running =>
    refine ordered.setStatus found (by rw [running]; rfl) nofun ?_ ?_ fun _ _ => release_fewer
    · intro prior queued
      exact ordered.begun _ _ prior found queued (by rw [running]; exact nofun)
    · intro place other there top unsettled
      rcases ordered.release found running place other there top unsettled with here | same
      · exact .inl ⟨here, rfl⟩
      · exact .inr same

/-- The body of a call is running for a session. -/
def Queue.runs (queue : Queue) (sessionId : String) (index : Nat) : Bool :=
  ((queue.calls[index]?).map fun call =>
    call.status = .running && call.sessionId = sessionId).getD false

def Queue.leads (queue : Queue) (sessionId : String) (index : Nat) : Bool :=
  ((queue.calls[index]?).map fun call => call.topLevel && (call.status = .running) &&
    call.sessionId = sessionId).getD false

/-- Work calls for the session of its body only while the top-level task that it belongs to runs,
and for another session only if none of its callers runs for that one. A top-level task settles
only after the bodies that were called from it for its session. -/
def Orderly (queue : Queue) : Event → Prop
  | .call caller sessionId =>
    if queue.getStore caller = some sessionId then
      ∃ index ∈ queue.callersOf caller, queue.leads sessionId index = true
    else ∀ index ∈ queue.callersOf caller, queue.runs sessionId index = false
  | .start _ => True
  | .settle index _ => ∀ call ∈ queue.calls[index]?, call.topLevel = true →
    ∀ body ∈ queue.calls, body.topLevel = false → body.status = .running →
      body.sessionId = call.sessionId → index ∉ body.callers

instance (queue : Queue) (event : Event) : Decidable (Orderly queue event) := by
  cases event <;> unfold Orderly <;> infer_instance

/-- Bodies that run inside of others, and calls that wait. -/
structure Rooted (queue : Queue) : Prop where
  inside : ∀ (index : Nat) body, queue.calls[index]? = some body → body.topLevel = false →
    body.status = .running → ∃ caller ∈ body.callers, queue.leads body.sessionId caller = true
  outside : ∀ (index : Nat) call, queue.calls[index]? = some call → call.topLevel = true →
    ∀ caller ∈ call.callers, queue.runs call.sessionId caller = false

section Bodies
variable {sessionId : String} {index place : Nat} {status : Status}
  {tails : String → Option (List Nat)}

lemma runs_iff : queue.runs sessionId index = true ↔ ∃ call, queue.calls[index]? = some call ∧
    call.status = .running ∧ call.sessionId = sessionId := by
  rw [Queue.runs]
  cases queue.calls[index]? <;> simp

lemma leads_iff : queue.leads sessionId index = true ↔ ∃ call, queue.calls[index]? = some call ∧
    call.topLevel = true ∧ call.status = .running ∧ call.sessionId = sessionId := by
  rw [Queue.leads]
  cases queue.calls[index]? <;> simp [and_assoc]

lemma leads_snoc {added : Call} (leads : queue.leads sessionId index = true) :
    Queue.leads ⟨queue.calls ++ [added], tails⟩ sessionId index = true := by
  obtain ⟨call, found, rest⟩ := leads_iff.mp leads
  exact leads_iff.mpr ⟨call, getElem?_grown found, rest⟩

lemma runs_snoc {added other : Call} (known : queue.calls[index]? = some other) :
    Queue.runs ⟨queue.calls ++ [added], tails⟩ sessionId index = queue.runs sessionId index := by
  rw [Queue.runs, Queue.runs, List.getElem?_append_left (List.getElem?_eq_some_iff.mp known).1]

lemma leads_setStatus (leads : queue.leads sessionId place = true)
    (still : place ≠ index ∨ status = .running) :
    Queue.leads ⟨queue.setStatus index status, tails⟩ sessionId place = true := by
  obtain ⟨call, found, top, running, session⟩ := leads_iff.mp leads
  obtain ⟨after, there, same, prior, change⟩ := setStatus_getElem? index status found
  refine leads_iff.mpr ⟨after, there, (congrArg Option.isSome prior).trans top, ?_,
    same.trans session⟩
  rcases change with ⟨_, rfl⟩ | ⟨here, changed⟩
  · exact running
  · rcases still with differs | rfl
    · exact absurd here differs
    · exact changed

/-- One more call: a body that runs inside of a top-level task, or a call of no running caller. -/
lemma Rooted.snoc (rooted : Rooted queue) (ordered : Ordered queue) {added : Call}
    (callers : ∀ caller ∈ added.callers,
      ∃ other, queue.calls[caller]? = some other ∧ other.status ≠ .waiting)
    (inside : added.topLevel = false →
      ∃ caller ∈ added.callers, queue.leads added.sessionId caller = true)
    (outside : added.topLevel = true →
      ∀ caller ∈ added.callers, queue.runs added.sessionId caller = false) :
    Rooted ⟨queue.calls ++ [added], tails⟩ := by
  refine ⟨?_, ?_⟩
  · intro index body found nested running
    have known : ∃ caller ∈ body.callers, queue.leads body.sessionId caller = true := by
      rcases Threads.getElem?_snoc found with old | ⟨_, rfl⟩
      · exact rooted.inside index body old nested running
      · exact inside nested
    obtain ⟨caller, member, leads⟩ := known
    exact ⟨caller, member, leads_snoc leads⟩
  · intro index call found top caller member
    rcases Threads.getElem?_snoc found with old | ⟨_, rfl⟩
    · obtain ⟨other, known, _⟩ := ordered.callers index call old caller member
      exact (runs_snoc known).trans (rooted.outside index call old top caller member)
    · obtain ⟨other, known, _⟩ := callers caller member
      exact (runs_snoc known).trans (outside top caller member)

/-- A call goes on: the top-level tasks that others run inside of do not end by it, and it was none
of the calls that others wait outside of. -/
lemma Rooted.setStatus (rooted : Rooted queue)
    (begins : status = .running → ∀ (place : Nat) call, queue.calls[place]? = some call →
      index ∉ call.callers)
    (ends : status ≠ .running → ∀ (place : Nat) body, queue.calls[place]? = some body →
      body.topLevel = false → body.status = .running → queue.leads body.sessionId index = true →
      index ∉ body.callers)
    (nested : ∀ call, queue.calls[index]? = some call → status = .running → call.topLevel = true) :
    Rooted ⟨queue.setStatus index status, tails⟩ := by
  refine ⟨?_, ?_⟩
  · intro place body found inner running
    obtain ⟨before, old, session, callers, prior, change⟩ := getElem?_setStatus found
    have innerBefore : before.topLevel = false := (congrArg Option.isSome prior).symm.trans inner
    have runningBefore : before.status = .running := by
      rcases change with ⟨_, rfl⟩ | ⟨rfl, changed⟩
      · exact running
      · cases innerBefore.symm.trans (nested before old (changed.symm.trans running))
    obtain ⟨caller, member, leads⟩ := rooted.inside place before old innerBefore runningBefore
    refine ⟨caller, callers ▸ member, session ▸ leads_setStatus leads ?_⟩
    by_cases starts : status = .running
    · exact .inr starts
    · left
      rintro rfl
      exact ends starts place before old innerBefore runningBefore leads member
  · intro place call found top caller member
    obtain ⟨before, old, session, callers, prior, _⟩ := getElem?_setStatus found
    have topBefore : before.topLevel = true := (congrArg Option.isSome prior).symm.trans top
    rw [callers] at member
    have quiet := rooted.outside place before old topBefore caller member
    rw [Bool.eq_false_iff] at quiet ⊢
    intro runs
    obtain ⟨after, there, running, same⟩ := runs_iff.mp runs
    obtain ⟨other, known, otherSession, _, _, ⟨_, rfl⟩ | ⟨rfl, changed⟩⟩ := getElem?_setStatus there
    · exact quiet (runs_iff.mpr ⟨_, known, running, same.trans session⟩)
    · exact begins (changed.symm.trans running) place before old member

end Bodies

lemma Rooted.moves (rooted : Rooted queue) (ordered : Ordered queue) (orderly : Orderly queue event)
    (moves : Moves queue event next) : Rooted next := by
  cases moves with
  | nested begun store =>
    rw [Orderly, if_pos store] at orderly
    exact rooted.snoc ordered (callersOf_begun ordered begun) (fun _ => orderly) nofun
  | queued begun store =>
    rw [Orderly, if_neg store] at orderly
    exact rooted.snoc ordered (callersOf_begun ordered begun) nofun fun _ => orderly
  | start found queued waiting released =>
    refine rooted.setStatus ?_ (fun differs => absurd rfl differs) ?_
    · intro _ place call there member
      obtain ⟨other, known, started⟩ := ordered.callers place call there _ member
      obtain rfl := Option.some.inj (found.symm.trans known)
      exact started waiting
    · intro call there _
      obtain rfl := Option.some.inj (found.symm.trans there)
      rw [Call.topLevel, queued]
      rfl
  | settle found running =>
    refine rooted.setStatus nofun ?_ nofun
    intro _ place body there nested runs leads
    obtain ⟨call, known, top, _, session⟩ := leads_iff.mp leads
    exact orderly call known top body (List.mem_of_getElem? there) nested runs session.symm

/-- Session mutations are serialised. -/
structure Serialised (queue : Queue) : Prop where
  exclusive : ∀ sessionId (first second : Nat), queue.leads sessionId first = true →
    queue.leads sessionId second = true → first = second
  rooted : ∀ (index : Nat) body, queue.calls[index]? = some body → body.status = .running →
    body.topLevel = true ∨ ∃ caller ∈ body.callers, queue.leads body.sessionId caller = true
  ordered : ∀ (index earlier : Nat) call other, queue.calls[index]? = some call →
    queue.calls[earlier]? = some other → call.topLevel = true → other.topLevel = true →
    other.sessionId = call.sessionId → earlier < index → call.status ≠ .waiting →
    other.status ≠ .waiting
  proceeds : ∀ (index : Nat) call, queue.calls[index]? = some call → call.status = .waiting →
    (∀ (earlier : Nat) other, earlier < index → queue.calls[earlier]? = some other →
      other.topLevel = true → other.sessionId = call.sessionId → other.status.isSettled = true) →
    ∃ next, queue.step (.start index) = .ok (next, ())
  reentrant : ∀ (index : Nat) call prior, queue.calls[index]? = some call →
    call.priorTail = some prior → ∀ caller ∈ call.callers,
    queue.runs call.sessionId caller = true → caller ∉ prior

lemma Ordered.settledBefore (ordered : Ordered queue) {index earlier : Nat} {call other : Call}
    (found : queue.calls[index]? = some call) (there : queue.calls[earlier]? = some other)
    (top : call.topLevel = true) (otherTop : other.topLevel = true)
    (session : other.sessionId = call.sessionId) (lower : earlier < index)
    (begun : call.status ≠ .waiting) : other.status.isSettled = true := by
  obtain ⟨prior, queued⟩ := Option.isSome_iff_exists.mp top
  rcases ordered.behind index call prior found queued earlier other lower there otherTop session with
    member | settled
  · obtain ⟨_, same, settled⟩ := settled_iff.mp
      (ordered.begun index call prior found queued begun earlier member)
    obtain rfl := Option.some.inj (there.symm.trans same)
    exact settled
  · exact settled

/-- Two top-level tasks of one session: the later one runs only when the earlier one has settled. -/
lemma Ordered.leads_not_lt (ordered : Ordered queue) {sessionId : String} {first second : Nat}
    (leads : queue.leads sessionId first = true) (other : queue.leads sessionId second = true) :
    ¬ first < second := by
  intro lower
  obtain ⟨call, found, top, running, session⟩ := leads_iff.mp leads
  obtain ⟨later, there, laterTop, laterRunning, laterSession⟩ := leads_iff.mp other
  have settled := ordered.settledBefore there found laterTop top (session.trans laterSession.symm)
    lower (by rw [laterRunning]; exact nofun)
  rw [running] at settled
  cases settled

lemma Ordered.start_ok (ordered : Ordered queue) {index : Nat} {call : Call}
    (found : queue.calls[index]? = some call) (waiting : call.status = .waiting)
    (settled : ∀ (earlier : Nat) other, earlier < index → queue.calls[earlier]? = some other →
      other.topLevel = true → other.sessionId = call.sessionId → other.status.isSettled = true) :
    ∃ next, queue.step (.start index) = .ok (next, ()) := by
  obtain ⟨prior, queued⟩ := Option.isSome_iff_exists.mp (ordered.waiting index call found waiting)
  have released : prior.all queue.settled = true := by
    rw [List.all_eq_true]
    intro other member
    obtain ⟨lower, earlier, there, top, session⟩ :=
      ordered.prior index call prior found queued other member
    exact settled_iff.mpr ⟨earlier, there, settled other earlier lower there top session⟩
  obtain ⟨sessionId, callers, priorTail, status⟩ := call
  cases queued
  cases waiting
  refine ⟨⟨queue.setStatus index .running, queue.sessionMutationTails⟩, ?_⟩
  simp only [Queue.step, found, released, if_true]

lemma kept_of_reaches (reached : Transition.Reaches Queue.step Orderly .start queue) :
    Ordered queue ∧ Rooted queue := by
  refine reached.invariant (P := fun queue => Ordered queue ∧ Rooted queue)
    ⟨start_ordered, nofun, nofun⟩ ?_
  intro queue next event _ kept orderly stepped
  have moves := step_moves stepped
  exact ⟨kept.1.moves moves, kept.2.moves kept.1 orderly moves⟩

/-- In every run in which no work outlives the task that it belongs to, session mutations are
serialised at any time. -/
theorem mutations_serialised (reached : Transition.Reaches Queue.step Orderly .start queue) :
    Serialised queue := by
  obtain ⟨ordered, rooted⟩ := kept_of_reaches reached
  constructor
  · intro sessionId first second leads other
    exact Nat.le_antisymm (not_lt.mp (ordered.leads_not_lt other leads))
      (not_lt.mp (ordered.leads_not_lt leads other))
  · intro index body found running
    cases top : body.topLevel with
    | true => exact .inl rfl
    | false => exact .inr (rooted.inside index body found top running)
  · intro index earlier call other found there top otherTop session lower begun waiting
    have settled := ordered.settledBefore found there top otherTop session lower begun
    rw [waiting] at settled
    cases settled
  · intro index call found waiting settled
    exact ordered.start_ok found waiting settled
  · intro index call prior found queued caller member runs
    have quiet := rooted.outside index call found (by rw [Call.topLevel, queued]; rfl) caller member
    cases quiet.symm.trans runs

theorem mutations_serialised_nested : ∃ queue : Queue,
    Transition.Reaches Queue.step Orderly .start queue ∧ Serialised queue ∧
      queue.calls.map Call.status = [.settled true, .running, .waiting, .running, .running] := by
  obtain ⟨queue, reached, shows⟩ := Transition.exists_reaches Queue.step Orderly .start
    (fun queue => decide (queue.calls.map Call.status =
      [.settled true, .running, .waiting, .running, .running]))
    [.call none "a", .call none "a", .start 0, .call none "a", .settle 0 true, .start 1,
      .call (some 1) "a", .call (some 3) "b", .start 4]
    (by decide +kernel)
  exact ⟨queue, reached, mutations_serialised reached, of_decide_eq_true shows⟩

/-- Work that a settled task has left behind calls for its session while the next task is running:
its body runs beside that task. -/
theorem detached_work_runs_beside : ∃ queue : Queue,
    Transition.Reaches Queue.step (fun _ _ => True) .start queue ∧
      queue.calls = [⟨"a", [], some [], .settled false⟩, ⟨"a", [], some [0], .running⟩,
        ⟨"a", [0], none, .running⟩] ∧ ¬ Serialised queue := by
  obtain ⟨queue, reached, shows⟩ := Transition.exists_reaches Queue.step (fun _ _ => True) .start
    (fun queue : Queue => decide (queue.calls = [⟨"a", [], some [], .settled false⟩,
      ⟨"a", [], some [0], .running⟩, ⟨"a", [0], none, .running⟩]))
    [.call none "a", .call none "a", .start 0, .settle 0 false, .start 1, .call (some 0) "a"]
    (by decide +kernel)
  have calls := of_decide_eq_true shows
  refine ⟨queue, reached, calls, fun serialised => ?_⟩
  rcases serialised.rooted 2 ⟨"a", [0], none, .running⟩ (by rw [calls]; rfl) rfl with
    top | ⟨caller, member, leads⟩
  · cases top
  · rw [List.mem_singleton.mp member, Queue.leads, calls] at leads
    cases leads

end OmegaEdit.Client.MutationQueue
