/-
Snapshots: what can be observed of a call, at one moment.

A snapshot is a value of its own that outlives the call.  It says whether there is
a history record and a queued acceptance, but not which.
-/
import CallLifecycle.Scene

namespace CallLifecycle

/-- What can be observed of a call. -/
structure Snapshot where
  id : Identifier
  direction : Direction
  threadId : String
  remoteAddress : Address
  sentAt : UInt64
  adapter : AdapterType
  offer : OfferMedia
  phase : Phase
  isOver : Bool
  signalingId : Option UInt64
  audioMuted : Bool
  localVideo : Bool
  onHold : Bool
  remoteVideo : Bool
  remoteSharing : Bool
  route : Route
  hasRecord : Bool
  hasDeferred : Bool
  registered : Bool
  deregistered : Bool
  deriving DecidableEq

/-- What can be observed of a call, among some surroundings; the contact's thread is read now. -/
def Call.observe (call : Call) (around : Surroundings) : Snapshot where
  id := call.id
  direction := call.direction
  threadId := (around.contact call.contact).threadId
  remoteAddress := call.remoteAddress
  sentAt := call.sentAt
  adapter := call.adapter
  offer := call.offer
  phase := call.phase
  isOver := call.isOver
  signalingId := call.signalingId
  audioMuted := call.audioMuted
  localVideo := call.localVideo
  onHold := call.onHold
  remoteVideo := call.remoteVideo
  remoteSharing := call.remoteSharing
  route := call.route
  hasRecord := call.record.isSome
  hasDeferred := call.deferred.isSome
  registered := call.registered
  deregistered := call.deregistered

/-- What can be observed of the call in a scene. -/
def Scene.observe (scene : Scene) : Snapshot :=
  scene.call.observe scene.around

end CallLifecycle
