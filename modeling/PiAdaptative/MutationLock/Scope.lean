import PiAdaptative.Foundations.OrderedMap
import Mathlib.Logic.Function.Basic

/-!
# The mutation lock of one worktree

File mutations and command runs share one group lock, the mutations of one file take turns in a
queue, and a call waits for the calls of the other kind that its announcer emitted earlier.  A call
is a sequence of steps that run without interruption between two of its waits; the steps of
different calls interleave freely.
-/

namespace PiAdaptative.MutationLock

/-- Who shares the lock with whom. -/
inductive LockGroup where
  | mutation
  | shell
  | exclusive
  deriving DecidableEq, Repr

/-- Whether a waiting call can join the calls that hold the lock. -/
def groupsShareTheLock (waiting holding : LockGroup) : Bool :=
  waiting = holding ∧ waiting ≠ .exclusive

/-- What an announced call does to the workspace. -/
inductive ToolCallKind where
  | mutation
  | shell
  | other
  deriving DecidableEq, Repr

abbrev OwnedCallId := String × Option String

/-- What the host announced about a call. -/
structure ToolCallAnnouncement where
  index : Nat
  kind : ToolCallKind
  /-- Whether the call joined the lock or never can. -/
  joined : Bool
  batchId : Option String
  announcer : Option String
  deriving DecidableEq, Repr

/-- Where a call stands; the names say what it does next or waits for. -/
inductive Phase where
  | idle
  | registering
  | registered
  | emissionWait (index : Nat)
  | cleared
  | lockQueue
  /-- The lock is taken, the call has not gone on yet. -/
  | admitted
  | pathWait
  | pathReady
  | drainWait
  | drained
  | body
  | failing
  | ended
  deriving DecidableEq, Repr

/-- One call of `withFileMutationQueue` or `withExclusiveMutationBarrier`. -/
structure Call where
  callId : Option String
  announcer : Option String
  group : LockGroup
  phase : Phase
  aborted : Bool
  holdsLock : Bool
  key : Option String
  /-- The registered mutations that must have released the file, the latest first. -/
  currentQueue : List Nat
  /-- Whether a command run has not joined the lock yet. -/
  queued : Bool
  lockless : Bool
  done : Bool
  deriving DecidableEq, Repr

/-- A call that has not been made. -/
def idleCall : Call where
  callId := none
  announcer := none
  group := .mutation
  phase := .idle
  aborted := false
  holdsLock := false
  key := none
  currentQueue := []
  queued := false
  lockless := false
  done := false

/-- The calls whose pending announcements a call waits for. -/
def Call.awaited (call : Call) : ToolCallKind :=
  if call.group = .mutation then .shell else .mutation

/-- The lock, the queues and all calls. -/
structure State where
  calls : Nat → Call
  /-- Mutations whose registration has not been taken up, in call order. -/
  registrations : List Nat
  queues : String → Option (List Nat)
  /-- The registered mutations in the order of their registration. -/
  registered : List Nat
  holders : Option (LockGroup × Nat)
  waiters : List Nat
  announcements : OrderedMap OwnedCallId ToolCallAnnouncement
  announcedBatchIds : Option String → Option String
  exclusiveHolds : OwnedCallId → Option Nat

def initialState : State where
  calls _ := idleCall
  registrations := []
  queues _ := none
  registered := []
  holders := none
  waiters := []
  announcements := .empty
  announcedBatchIds _ := none
  exclusiveHolds _ := none

namespace State

def setCall (state : State) (id : Nat) (call : Call) : State :=
  { state with calls := Function.update state.calls id call }

/-- Move a call to another phase. -/
def setPhase (state : State) (id : Nat) (phase : Phase) : State :=
  state.setCall id { state.calls id with phase }

/-- The number of calls that hold the lock. -/
def holderCount (state : State) : Nat :=
  match state.holders with
  | none => 0
  | some (_, count) => count

/-- Whether a group can join the holders. -/
def canJoin (group : LockGroup) (holders : Option (LockGroup × Nat)) : Bool :=
  match holders with
  | none => true
  | some (holding, _) => groupsShareTheLock group holding

/-- The holders after one more call of a group. -/
def joinHolders (group : LockGroup) (holders : Option (LockGroup × Nat)) :
    Option (LockGroup × Nat) :=
  match holders with
  | none => some (group, 1)
  | some (holding, count) => some (holding, count + 1)

/-- Count a call among the holders and let it go on. -/
def admitCall (state : State) (id : Nat) : State :=
  { state with
    holders := joinHolders (state.calls id).group state.holders
    calls := Function.update state.calls id
      { state.calls id with phase := .admitted, holdsLock := true } }

/-- Admit every waiter at the front of a queue that can share the lock. -/
def pumpFrom : List Nat → State → State
  | [], state => { state with waiters := [] }
  | head :: rest, state =>
      if canJoin (state.calls head).group state.holders then pumpFrom rest (state.admitCall head)
      else { state with waiters := head :: rest }

def pumpLock (state : State) : State := pumpFrom state.waiters state

/-- Take the lock at once or queue for it. -/
def acquireLock (state : State) (id : Nat) : State :=
  if (state.calls id).aborted then state.setPhase id .failing
  else if state.waiters = [] ∧ canJoin (state.calls id).group state.holders = true then
    state.admitCall id
  else { state.setPhase id .lockQueue with waiters := state.waiters ++ [id] }

/-- Wake every handed-off command run that waits for mutations. -/
def wakeDrainWaiters (state : State) : State :=
  { state with
    calls := fun id =>
      if (state.calls id).phase = .drainWait then { state.calls id with phase := .drained }
      else state.calls id }

/-- Give back the place of a call among the holders. -/
def releaseLock (state : State) (id : Nat) : State :=
  let given := state.setCall id { state.calls id with holdsLock := false }
  match given.holders with
  | none => given
  | some (group, count) =>
      if 1 < count then { given with holders := some (group, count - 1) }
      else
        let free := { given with holders := none }
        (if group = .mutation then free.wakeDrainWaiters else free).pumpLock

/-- Whether file mutations hold the lock. -/
def mutationsHold (state : State) : Bool :=
  match state.holders with
  | none => false
  | some (group, _) => group = .mutation

/-- Let a handed-off command run wait for running mutations. -/
def waitForMutationsToDrain (state : State) (id : Nat) : State :=
  if state.mutationsHold = false then state.setPhase id .drained
  else if (state.calls id).aborted then state.setPhase id .failing
  else state.setPhase id .drainWait

/-- Whether a call of a kind is announced before an index and has not joined. -/
def hasPendingCallBefore (state : State) (index : Nat) (kind : ToolCallKind)
    (announcer : Option String) : Bool :=
  state.announcements.values.any fun announcement =>
    announcement.announcer = announcer ∧ announcement.kind = kind ∧
      announcement.joined = false ∧ announcement.index < index

/-- Let every call go on that waits for nothing any more. -/
def releaseClearedWaiters (state : State) : State :=
  { state with
    calls := fun id =>
      match (state.calls id).phase with
      | .emissionWait index =>
          if state.hasPendingCallBefore index (state.calls id).awaited
              (state.calls id).announcer then state.calls id
          else { state.calls id with phase := .cleared }
      | _ => state.calls id }

/-- Forget what an announcer announced in other waves. -/
def changeWave (state : State) (batchId announcer : Option String) : State :=
  if batchId ≠ none ∧ batchId ≠ state.announcedBatchIds announcer then
    { state with
      announcements := state.announcements.eraseAll
        ((state.announcements.entries.filter fun entry =>
          entry.2.announcer = announcer ∧ entry.2.batchId ≠ batchId).map Prod.fst)
      announcedBatchIds := Function.update state.announcedBatchIds announcer batchId }
  else state

/-- Record a call at its position. -/
def announce (state : State) (callId : String) (index : Nat) (kind : ToolCallKind)
    (batchId announcer : Option String) : State :=
  let changed := state.changeWave batchId announcer
  releaseClearedWaiters { changed with
    announcements := changed.announcements.set (callId, announcer)
      { index, kind, joined := false, batchId, announcer } }

def retire (state : State) (callId : String) (announcer : Option String) : State :=
  if state.announcements.has (callId, announcer) then
    releaseClearedWaiters { state with
      announcements := state.announcements.erase (callId, announcer) }
  else state

def announcement? (state : State) (callId announcer : Option String) :
    Option ToolCallAnnouncement :=
  callId.bind fun present => state.announcements.get? (present, announcer)

def setAnnouncement (state : State) (callId announcer : Option String)
    (announcement : ToolCallAnnouncement) : State :=
  match callId with
  | none => state
  | some present =>
      { state with announcements := state.announcements.set (present, announcer) announcement }

/-- The announcement of a call stops being pending. -/
def markAnnouncementJoined (state : State) (callId announcer : Option String) : State :=
  match state.announcement? callId announcer with
  | none => state
  | some announcement =>
      if announcement.joined then state
      else releaseClearedWaiters
        (state.setAnnouncement callId announcer { announcement with joined := true })

/-- Declare an announced call a command run; the group it takes the lock in. -/
def declareAnnouncedShellRun (state : State) (callId announcer : Option String) :
    State × LockGroup :=
  match state.announcement? callId announcer with
  | none => (state, .exclusive)
  | some announcement =>
      if announcement.kind = .mutation then (state, .exclusive)
      else (state.setAnnouncement callId announcer { announcement with kind := .shell }, .shell)

/-- Let a call wait for the calls of the other kind that were announced before it. -/
def waitForEarlierAnnouncedCalls (state : State) (id : Nat) : State :=
  let call := state.calls id
  match state.announcement? call.callId call.announcer with
  | none => state.setPhase id .cleared
  | some announcement =>
      if state.hasPendingCallBefore announcement.index call.awaited announcement.announcer = false
      then state.setPhase id .cleared
      else if call.aborted then state.setPhase id .failing
      else state.setPhase id (.emissionWait announcement.index)

def startCommand (state : State) (id : Nat) (callId announcer : Option String) : State :=
  let (declared, group) := state.declareAnnouncedShellRun callId announcer
  let named := match callId with
    | none => declared
    | some present =>
        { declared with
          exclusiveHolds := Function.update declared.exclusiveHolds (present, announcer) id }
  (named.setCall id { idleCall with callId, announcer, group, queued := true })
    |>.waitForEarlierAnnouncedCalls id

/-- Nothing is left to release; the run never joins the lock again. -/
def unregister (state : State) (id : Nat) : State :=
  let call := state.calls id
  let marked := (state.setCall id { call with done := true }).markAnnouncementJoined
    call.callId call.announcer
  match call.callId with
  | none => marked
  | some present =>
      if marked.exclusiveHolds (present, call.announcer) = some id then
        { marked with
          exclusiveHolds :=
            Function.update marked.exclusiveHolds (present, call.announcer) none }
      else marked

/-- Stop holding the lock for a named command run. -/
def releaseHold (state : State) (callId : String) (announcer : Option String) : State :=
  match state.exclusiveHolds (callId, announcer) with
  | none => state
  | some id =>
      if (state.calls id).done then state
      else
        let marked := state.markAnnouncementJoined (some callId) announcer
        if (marked.calls id).queued then
          marked.setCall id { marked.calls id with done := true, lockless := true }
        else
          let given := marked.setCall id { marked.calls id with done := true }
          if (given.calls id).holdsLock then given.releaseLock id else given

def startMutation (state : State) (id : Nat) (callId announcer : Option String) : State :=
  { state.setCall id { idleCall with callId, announcer, phase := .registering } with
    registrations := state.registrations ++ [id] }

/-- Take a place in the queue of a resource. -/
def register (state : State) (id : Nat) (key : String) : State :=
  let currentQueue := (state.queues key).getD []
  { state.setCall id { state.calls id with phase := .registered, key := some key, currentQueue }
    with
    registrations := state.registrations.tail
    queues := Function.update state.queues key (some (id :: currentQueue))
    registered := state.registered ++ [id] }

/-- Give back the lock and the place in the queue. -/
def leaveMutation (state : State) (id : Nat) : State :=
  let given := if (state.calls id).holdsLock then state.releaseLock id else state
  let left := given.setPhase id .ended
  match (left.calls id).key with
  | none => left
  | some key =>
      if left.queues key = some (id :: (left.calls id).currentQueue) then
        { left with queues := Function.update left.queues key none }
      else left

/-- A command run that holds the lock, goes on. -/
def enterCommand (state : State) (id : Nat) : State :=
  let joined := state.setCall id { state.calls id with queued := false }
  if (joined.calls id).lockless then (joined.releaseLock id).waitForMutationsToDrain id
  else
    (joined.markAnnouncementJoined (joined.calls id).callId (joined.calls id).announcer)
      |>.setPhase id .body

/-- A mutation that holds the lock, goes on. -/
def enterMutation (state : State) (id : Nat) : State :=
  let joined := state.markAnnouncementJoined (state.calls id).callId (state.calls id).announcer
  if (joined.calls id).aborted then joined.setPhase id .failing else joined.setPhase id .pathWait

/-- Run a call from the end of one wait to its next wait or to its body. -/
def resume (state : State) (id : Nat) : Option State :=
  let call := state.calls id
  match call.phase with
  | .registered => some (state.waitForEarlierAnnouncedCalls id)
  | .cleared =>
      if call.group ≠ .mutation ∧ call.lockless = true then
        some (state.waitForMutationsToDrain id)
      else some (state.acquireLock id)
  | .admitted =>
      if call.group = .mutation then some (state.enterMutation id)
      else some (state.enterCommand id)
  | .pathReady =>
      if call.aborted then some (state.setPhase id .failing) else some (state.setPhase id .body)
  | .drained => some (state.setPhase id .body)
  | _ => none

/-- End a call whose body returned or whose wait was abandoned. -/
def finish (state : State) (id : Nat) : State :=
  if (state.calls id).group = .mutation then state.leaveMutation id
  else
    let given := if (state.calls id).holdsLock then state.releaseLock id else state
    (given.unregister id).setPhase id .ended

def abort (state : State) (id : Nat) : State :=
  let flagged := state.setCall id { state.calls id with aborted := true }
  match (state.calls id).phase with
  | .registering => flagged.setPhase id .failing
  | .emissionWait _ => flagged.setPhase id .failing
  | .pathWait => flagged.setPhase id .failing
  | .drainWait => flagged.setPhase id .failing
  | .lockQueue =>
      pumpLock { flagged.setPhase id .failing with waiters := state.waiters.erase id }
  | _ => flagged

end State

/-- One step of the host, of a call or of its signal. -/
inductive Event where
  | announce (callId : String) (index : Nat) (kind : ToolCallKind)
      (batchId announcer : Option String)
  | retire (callId : String) (announcer : Option String)
  | startMutation (id : Nat) (callId announcer : Option String)
  | startCommand (id : Nat) (callId announcer : Option String)
  | register (id : Nat) (key : String)
  /-- The file of the next mutation is not resolved. -/
  | skipRegistration (id : Nat)
  | loseRegistration (id : Nat)
  | resume (id : Nat)
  | settlePath (id : Nat)
  | finish (id : Nat)
  | handOff (callId : String) (announcer : Option String)
  | abort (id : Nat)
  deriving DecidableEq, Repr

/-- The state after a step, where the step can be taken. -/
def next (state : State) : Event → Option State
  | .announce callId index kind batchId announcer =>
      some (state.announce callId index kind batchId announcer)
  | .retire callId announcer => some (state.retire callId announcer)
  | .startMutation id callId announcer =>
      if (state.calls id).phase = .idle then some (state.startMutation id callId announcer)
      else none
  | .startCommand id callId announcer =>
      if (state.calls id).phase = .idle then some (state.startCommand id callId announcer)
      else none
  | .register id key =>
      if state.registrations.head? = some id ∧ (state.calls id).phase = .registering then
        some (state.register id key)
      else none
  | .skipRegistration id =>
      if state.registrations.head? = some id then
        let skipped := { state with registrations := state.registrations.tail }
        if (state.calls id).phase = .registering then some (skipped.setPhase id .failing)
        else some skipped
      else none
  | .loseRegistration id =>
      if (state.calls id).phase = .registered ∧ (state.calls id).aborted = true then
        some (state.setPhase id .failing)
      else none
  | .resume id => state.resume id
  | .settlePath id =>
      if (state.calls id).phase = .pathWait ∧
          ∀ earlier ∈ (state.calls id).currentQueue, (state.calls earlier).phase = .ended then
        some (state.setPhase id .pathReady)
      else none
  | .finish id =>
      if (state.calls id).phase = .body ∨ (state.calls id).phase = .failing then
        some (state.finish id)
      else none
  | .handOff callId announcer => some (state.releaseHold callId announcer)
  | .abort id =>
      if (state.calls id).phase ≠ .idle ∧ (state.calls id).phase ≠ .ended ∧
          (state.calls id).aborted = false then
        some (state.abort id)
      else none

def Step (before : State) (event : Event) (after : State) : Prop := next before event = some after

end PiAdaptative.MutationLock
