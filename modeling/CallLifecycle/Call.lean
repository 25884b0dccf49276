/-
A call: the data kept for one individual call from its start to its end.

Some of it never changes: who the call is with, under which identifier, what was
offered.  The rest is the phase, five switches, the signaling identifier and the
network route, the linked history record, and what the system's registry was
told.  While a call is `accepting` it may also hold one *acceptance*, the work that
completes answering once the media engine is ready.

Two calls are the same call when they have the same identifier, whatever else is
known of them.
-/
import CallLifecycle.CallFailure
import CallLifecycle.CallSetup
import CallLifecycle.Network
import CallLifecycle.Note
import CallLifecycle.Settings
import CallLifecycle.Surroundings

namespace CallLifecycle

/-- Work that completes answering: what it does outside the call, and how it ends. -/
structure Acceptance where
  name : String
  /-- Why the work fails, if it does. -/
  failure : Option CallFailure := none
  /-- What the work does to the surroundings, in order. -/
  effects : List OutsideStep := []
  deriving DecidableEq

/-- The data kept for one call. -/
structure Call where
  id : Identifier
  direction : Direction
  /-- Which of the contacts the call is with. -/
  contact : Nat
  /-- The contact's address when the call started. -/
  remoteAddress : Address
  sentAt : UInt64
  adapter : AdapterType
  offer : OfferMedia
  phase : Phase
  signalingId : Option UInt64 := none
  audioMuted : Bool
  localVideo : Bool
  onHold : Bool := false
  remoteVideo : Bool := false
  remoteSharing : Bool := false
  route : Route := default
  /-- Which of the records is linked to the call. -/
  record : Option Nat := none
  /-- The acceptance that waits for the media engine. -/
  deferred : Option Acceptance := none
  /-- Whether the system's registry was told of the call. -/
  registered : Bool := false
  /-- Whether the system's registry was told that the call is over. -/
  deregistered : Bool := false
  /-- Which of the listeners follows the call. -/
  listener : Option Nat := none
  reporter : Reporter
  /-- Whether the call may move only as the transition table says. -/
  enforced : Bool
  /-- The thread that the call belongs to. -/
  owner : Thread

/-- A switch of a call that is on or off. -/
inductive Switch
  | audioMuted
  | localVideo
  | onHold
  | remoteVideo
  | remoteSharing
  deriving DecidableEq

namespace Switch

/-- Whether a switch is on. -/
def isOn (call : Call) : Switch → Bool
  | audioMuted => call.audioMuted
  | localVideo => call.localVideo
  | onHold => call.onHold
  | remoteVideo => call.remoteVideo
  | remoteSharing => call.remoteSharing

/-- The call with one switch set. -/
def set (on : Bool) (call : Call) : Switch → Call
  | audioMuted => { call with audioMuted := on }
  | localVideo => { call with localVideo := on }
  | onHold => { call with onHold := on }
  | remoteVideo => { call with remoteVideo := on }
  | remoteSharing => { call with remoteSharing := on }

/-- What a listener is told: of video, that it is muted and not that it is on. -/
def change (on : Bool) : Switch → Change
  | audioMuted => .localAudioMute on
  | localVideo => .localVideoMute !on
  | onHold => .hold on
  | remoteVideo => .remoteVideoMute !on
  | remoteSharing => .remoteSharing on

/-- What is logged when a switch is set. -/
def note (old new : Bool) : Switch → Note
  | audioMuted => .mutedChanged old new
  | localVideo => .localVideoSet new
  | onHold => .onHoldChanged old new
  | remoteVideo => .remoteVideoSet new
  | remoteSharing => .remoteSharingSet new

/-- The operation that sets a switch. -/
def operation : Switch → String
  | audioMuted => "set_audio_muted"
  | localVideo => "set_local_video_enabled"
  | onHold => "set_on_hold"
  | remoteVideo => "set_remote_video_enabled"
  | remoteSharing => "set_remote_sharing_screen"

end Switch

namespace Call

/-- A call as it starts: muted unless the microphone may be used, with video if that was offered. -/
def start (setup : CallSetup) (address : Address) (settings : Settings) (reporter : Reporter)
    (owner : Thread) : Call where
  id := setup.id
  direction := setup.direction
  contact := setup.contact
  remoteAddress := address
  sentAt := setup.sentAt
  adapter := setup.adapter
  offer := setup.offer
  phase := setup.phase
  audioMuted := !setup.mic.permits
  localVideo := setup.offer == .video
  reporter := reporter
  enforced := settings.enforceTable
  owner := owner

/-- Whether the call is over. -/
def isOver (call : Call) : Bool :=
  call.phase.isOver

/-- What a call is called in the log. -/
def label (call : Call) : CallLabel :=
  ⟨call.remoteAddress, call.id, call.signalingId⟩

/-- Whether two calls are one. -/
def isSame (a b : Call) : Bool :=
  a.id == b.id

/-- How many different calls there are among some. -/
def countDistinct (calls : List Call) : Nat :=
  (calls.map (·.id)).eraseDups.length

/-- The fields of a call that diagnostics show, by name. -/
def shownFields (call : Call) : List (String × String) :=
  [("local_id", call.id.text), ("direction", call.direction.label),
    ("state", call.phase.label)]

/-- A call on one line, as diagnostics show it; the two dots stand for what is left out. -/
def summary (call : Call) : String :=
  let fields := call.shownFields ++ [("signaling_id", optionalNumber call.signalingId)]
  "CallSession \x7b " ++
    String.join (fields.map fun (name, value) => name ++ ": " ++ value ++ ", ") ++ ".. \x7d"

/-- A call with a line for each field, as diagnostics show it. -/
def summaryLines (call : Call) : String :=
  let signalingId :=
    match call.signalingId with
    | none => "None"
    | some n => "Some(\n        " ++ Decimal.text n.toNat ++ ",\n    )"
  let fields := call.shownFields ++ [("signaling_id", signalingId)]
  "CallSession \x7b\n" ++
    String.join (fields.map fun (name, value) => "    " ++ name ++ ": " ++ value ++ ",\n") ++
    "    ..\n\x7d"

end Call

end CallLifecycle
