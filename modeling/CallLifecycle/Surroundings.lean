/-
What surrounds the calls: the contacts they are with, the history records they
are linked to, and the listeners that follow them.

Calls share all three and own none.  A call refers to its listener weakly, so a
listener that nobody else holds is gone, and notices to it go nowhere.  There are
two kinds of listener: an observer is called back at once, and a channel queues
each notice until its reading end takes it.
-/
import CallLifecycle.Address
import CallLifecycle.History
import CallLifecycle.Phase

namespace CallLifecycle

/-- What changed about a call, as its listener is told. -/
inductive Change
  | phase (new : Phase)
  | localVideoMute (muted : Bool)
  | localAudioMute (muted : Bool)
  | hold (held : Bool)
  | remoteVideoMute (muted : Bool)
  | remoteSharing (sharing : Bool)
  deriving DecidableEq

/-- The word for what changed. -/
def Change.name : Change → String
  | phase _ => "state"
  | localVideoMute _ => "local_video_mute"
  | localAudioMute _ => "local_audio_mute"
  | hold _ => "hold"
  | remoteVideoMute _ => "remote_video_mute"
  | remoteSharing _ => "remote_sharing_screen"

/-- A change, and the call it happened to. -/
structure Notice where
  callId : Identifier
  change : Change
  deriving DecidableEq

/-- How a listener takes its notices. -/
inductive Outlet
  /-- It is called back. -/
  | callback
  /-- They wait, oldest first, for the reading end. -/
  | queue (waiting : List Notice)
  /-- The reading end is gone. -/
  | closed
  deriving DecidableEq

/-- Whoever follows calls. -/
structure Listener where
  /-- Whether anybody still holds the listener. -/
  alive : Bool := true
  outlet : Outlet
  deriving DecidableEq

/-- A listener that is called back. -/
def Listener.observer : Listener :=
  { outlet := .callback }

/-- A listener that queues its notices. -/
def Listener.channel : Listener :=
  { outlet := .queue [] }

/-- Puts a notice at the end of a queue. -/
def Listener.enqueue (notice : Notice) (l : Listener) : Listener :=
  match l.outlet with
  | .queue waiting => { l with outlet := .queue (waiting ++ [notice]) }
  | _ => l

/-- Everything that calls share. -/
structure Surroundings where
  contacts : List Contact
  records : List Record
  listeners : List Listener
  deriving DecidableEq

/-- Something done to the surroundings by neither a call nor an operation on one. -/
inductive OutsideStep
  | contactChange (contact : Nat) (new : Contact)
  | recordChange (record : Nat) (kind : RecordKind)
  /-- The last holder of a listener lets go of it. -/
  | listenerDrop (listener : Nat)
  /-- A channel's reading end goes away, with whatever is still queued. -/
  | receiverDrop (listener : Nat)
  /-- A channel's reading end takes all that is queued. -/
  | receiverDrain (listener : Nat)
  deriving DecidableEq

namespace Listener

/-- What is queued for the reading end, if there is one. -/
def waiting? (l : Listener) : Option (List Notice) :=
  match l.outlet with
  | .queue waiting => some waiting
  | _ => none

/-- The listener once nobody holds it; what is queued stays queued. -/
def drop (l : Listener) : Listener :=
  { l with alive := false }

/-- The listener once its reading end is gone. -/
def close (l : Listener) : Listener :=
  match l.outlet with
  | .queue _ => { l with outlet := .closed }
  | _ => l

/-- The listener once all that was queued is taken. -/
def drain (l : Listener) : Listener :=
  match l.outlet with
  | .queue _ => { l with outlet := .queue [] }
  | _ => l

end Listener

namespace Surroundings

/-- The contact of a number, and the unknown one where there is none. -/
def contact (around : Surroundings) (i : Nat) : Contact :=
  around.contacts.getD i .unknown

/-- A listener that is still held by somebody. -/
def liveListener? (around : Surroundings) (i : Nat) : Option Listener :=
  around.listeners[i]?.filter (·.alive)

/-- What is queued for the reading end of a channel, if there is one. -/
def waiting? (around : Surroundings) (i : Nat) : Option (List Notice) :=
  around.listeners[i]?.bind Listener.waiting?

/-- The surroundings with one listener changed. -/
def modifyListener (i : Nat) (f : Listener → Listener) (around : Surroundings) : Surroundings :=
  { around with listeners := around.listeners.modify i f }

/-- The surroundings with one record changed. -/
def modifyRecord (i : Nat) (f : Record → Record) (around : Surroundings) : Surroundings :=
  { around with records := around.records.modify i f }

/-- What a step from outside makes of the surroundings. -/
def apply (around : Surroundings) : OutsideStep → Surroundings
  | .contactChange i new => { around with contacts := around.contacts.set i new }
  | .recordChange i kind => around.modifyRecord i fun r => { r with kind := kind }
  | .listenerDrop i => around.modifyListener i Listener.drop
  | .receiverDrop i => around.modifyListener i Listener.close
  | .receiverDrain i => around.modifyListener i Listener.drain

/-- What steps from outside make of the surroundings, one after the other. -/
def applyAll (around : Surroundings) (steps : List OutsideStep) : Surroundings :=
  steps.foldl apply around

end Surroundings

end CallLifecycle
