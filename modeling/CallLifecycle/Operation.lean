/-
The operations on a call.

Each operation first checks that it is called on the call's own thread; `answer`
and `engineReady` do so through the operations that they are made of.  A rule that
refuses an operation leaves the call as it was.

Answering has two sides that come in either order: the user answers, and the media
engine becomes ready.  A call that is ready to answer finishes answering at once.
An anticipatory one waits in `accepting` with the acceptance queued, and finishes
when the engine is ready.  Finishing runs the acceptance, and its outcome decides
between `connected` and `localFailure`.
-/
import CallLifecycle.Turn

namespace CallLifecycle

/-- What can be done to a call. -/
inductive Operation
  | setPhase (new : Phase)
  /-- Moves to `accepting` with an acceptance already queued when the listener is told. -/
  | awaitMedia (acceptance : Acceptance)
  /-- Queues an acceptance, which only an `accepting` call takes. -/
  | deferAcceptance (acceptance : Acceptance)
  /-- Hands out the queued acceptance. -/
  | handOver
  /-- The user answers. -/
  | answer (acceptance : Acceptance)
  /-- The media engine is ready. -/
  | engineReady
  /-- Links a history record, once. -/
  | linkRecord (record : Nat)
  | assignSignalingId (id : UInt64)
  | setSwitch (switch : Switch) (on : Bool)
  | setRoute (route : Route)
  /-- Makes a listener the one that follows the call. -/
  | attach (listener : Nat)
  | detach
  /-- The system's registry was told of the call. -/
  | register
  /-- The system's registry was told that the call is over. -/
  | deregister
  deriving DecidableEq

/-- How an operation ends. -/
inductive Reply
  | done
  /-- The acceptance that was queued, if there was one. -/
  | handed (acceptance : Option Acceptance)
  | refused (e : CallFailure)
  | aborted (d : Defect)
  deriving DecidableEq

namespace Turn

/-- Moves the call to another phase and tells its listener. -/
def setPhase (thread : Thread) (new : Phase) : Turn Unit := do
  checkContext thread "set_state"
  move new
  notify (.phase new)

/-- Moves the call to `accepting`, queues an acceptance, and then tells the listener. -/
def awaitMedia (thread : Thread) (acceptance : Acceptance) : Turn Unit := do
  checkContext thread "begin_accepting"
  move .accepting
  queue acceptance
  notify (.phase .accepting)

/-- Queues an acceptance in an `accepting` call. -/
def deferAcceptance (thread : Thread) (acceptance : Acceptance) : Turn Unit := do
  checkContext thread "set_deferred_acceptance"
  let phase := (← call).phase
  if phase ≠ .accepting then
    report (.deferredOutsideAccepting phase)
    refuse (.deferredOutsideAccepting phase)
  queue acceptance

/-- Hands out the queued acceptance. -/
def handOver (thread : Thread) : Turn (Option Acceptance) := do
  checkContext thread "take_deferred_acceptance"
  let deferred := (← call).deferred
  modifyCall ({ · with deferred := none })
  return deferred

/-- Runs an acceptance, and connects the call or ends it by the outcome. -/
def finish (thread : Thread) (acceptance : Acceptance) : Turn Unit := do
  act (Progress.runAcceptance acceptance)
  match acceptance.failure with
  | none => setPhase thread .connected
  | some e =>
    note (.acceptanceFailed (← call).label e)
    setPhase thread .localFailure
    refuse e

/-- The user answers: completes now, or once the media engine is ready. -/
def answer (thread : Thread) (acceptance : Acceptance) : Turn Unit := do
  let call ← call
  match call.phase with
  | .ringingReadyToAnswer => finish thread acceptance
  | .ringingAnticipatory =>
    note (.acceptanceDeferred call.label)
    awaitMedia thread acceptance
  | phase =>
    note (.answerIgnored phase call.label)
    refuse (.notRinging phase)

/-- The media engine is ready: a ringing call may be answered, an answered one completes. -/
def engineReady (thread : Thread) : Turn Unit := do
  match (← call).phase with
  | .answering | .ringingAnticipatory => setPhase thread .ringingReadyToAnswer
  | .accepting =>
    match ← handOver thread with
    | some acceptance => finish thread acceptance
    | none =>
      report .acceptingWithoutDeferred
      setPhase thread .localFailure
      refuse .noDeferredAcceptance
  | phase => note (.engineReadyIgnored phase)

/-- Links a record to a call that has none. -/
def linkRecord (thread : Thread) (record : Nat) : Turn Unit := do
  checkContext thread "set_call_record"
  if (← call).record.isSome then
    report .recordRelinked
    refuse .recordAlreadyLinked
  modifyCall ({ · with record := some record })
  act Progress.promoteRecord

/-- Gives the call its identifier in signaling. -/
def assignSignalingId (thread : Thread) (id : UInt64) : Turn Unit := do
  checkContext thread "set_signaling_id"
  if let some old := (← call).signalingId then
    if old ≠ id then
      note (.signalingIdReassigned old id)
  modifyCall ({ · with signalingId := some id })
  note (.signalingIdSet (← call).label)

/-- Sets a switch and tells the listener, also when the switch stays as it was. -/
def setSwitch (thread : Thread) (switch : Switch) (on : Bool) : Turn Unit := do
  checkContext thread switch.operation
  let old := switch.isOn (← call)
  modifyCall (switch.set on ·)
  note (switch.note old on)
  notify (switch.change on)

/-- Keeps the route that the media engine reports. -/
def setRoute (thread : Thread) (route : Route) : Turn Unit := do
  checkContext thread "set_network_route"
  modifyCall ({ · with route := route })
  note (.routeSet route)

/-- Makes a listener the one that follows the call. -/
def attach (thread : Thread) (listener : Nat) : Turn Unit := do
  checkContext thread "set_delegate"
  modifyCall ({ · with listener := some listener })

/-- Leaves the call without a listener. -/
def detach (thread : Thread) : Turn Unit := do
  checkContext thread "clear_delegate"
  modifyCall ({ · with listener := none })

/-- Keeps that the system's registry was told of the call. -/
def register (thread : Thread) : Turn Unit := do
  checkContext thread "mark_reported_to_system"
  modifyCall ({ · with registered := true })

/-- Keeps that the registry was told the call is over, if it was told of the call at all. -/
def deregister (thread : Thread) : Turn Unit := do
  checkContext thread "mark_removed_from_system"
  if (← call).registered then
    modifyCall ({ · with deregistered := true })
  else
    report .deregisteredBeforeRegistered

/-- The last turn of a call: it should be over, and the registry should know as much. -/
def tearDown : Turn Unit := do
  let call ← call
  note (.dropping call.label)
  if !call.isOver then
    report (.notEndedAtTeardown call.phase)
  if call.registered ≠ call.deregistered then
    report (.registrationMismatch call.registered call.deregistered)

end Turn

/-- The turn that an operation takes, called on a thread. -/
def Operation.turn (thread : Thread) : Operation → Turn Reply
  | setPhase new => do Turn.setPhase thread new; return .done
  | awaitMedia acceptance => do Turn.awaitMedia thread acceptance; return .done
  | deferAcceptance acceptance => do Turn.deferAcceptance thread acceptance; return .done
  | handOver => return .handed (← Turn.handOver thread)
  | answer acceptance => do Turn.answer thread acceptance; return .done
  | engineReady => do Turn.engineReady thread; return .done
  | linkRecord record => do Turn.linkRecord thread record; return .done
  | assignSignalingId id => do Turn.assignSignalingId thread id; return .done
  | setSwitch switch on => do Turn.setSwitch thread switch on; return .done
  | setRoute route => do Turn.setRoute thread route; return .done
  | attach listener => do Turn.attach thread listener; return .done
  | detach => do Turn.detach thread; return .done
  | register => do Turn.register thread; return .done
  | deregister => do Turn.deregister thread; return .done

/-- What a turn leaves behind: the scene, what happened, and how it ended. -/
structure Outcome where
  scene : Scene
  trace : Trace
  reply : Reply

namespace Scene

/-- Takes a turn from its beginning to its end. -/
def play (scene : Scene) (turn : Turn Reply) : Outcome :=
  match turn.run ⟨scene, []⟩ with
  | .ok reply p => ⟨p.scene, p.trace, reply⟩
  | .error (.refused e) p => ⟨p.scene, p.trace, .refused e⟩
  | .error (.aborted d) p => ⟨p.scene, p.trace, .aborted d⟩

/-- Performs an operation, called on a thread. -/
def perform (scene : Scene) (thread : Thread) (op : Operation) : Outcome :=
  scene.play (op.turn thread)

/-- Takes the call's last turn. -/
def close (scene : Scene) : Outcome :=
  scene.play do Turn.tearDown; return .done

end Scene

end CallLifecycle
