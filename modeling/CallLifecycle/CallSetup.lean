/-
What is known of a call when it starts.

A call placed here starts out dialing and takes the time of placing it; a call
offered from the other end starts out answering and brings the time it was sent.
-/
import CallLifecycle.Identifier
import CallLifecycle.Phase

namespace CallLifecycle

/-- Which end placed the call. -/
inductive Direction
  | outgoing
  | incoming
  deriving DecidableEq

def Direction.name : Direction → String
  | outgoing => "outgoing"
  | incoming => "incoming"

def Direction.label : Direction → String
  | outgoing => "Outgoing"
  | incoming => "Incoming"

instance : Vocabulary Direction where
  all := [.outgoing, .incoming]
  name := Direction.name
  label := Direction.label
  find_name a := by cases a <;> decide

/-- How the call's media are routed here: through the system's call screen or not. -/
inductive AdapterType
  | standard
  | nonCallKit
  deriving DecidableEq

def AdapterType.name : AdapterType → String
  | standard => "default"
  | nonCallKit => "non_call_kit"

def AdapterType.label : AdapterType → String
  | standard => "Default"
  | nonCallKit => "NonCallKit"

instance : Vocabulary AdapterType where
  all := [.standard, .nonCallKit]
  name := AdapterType.name
  label := AdapterType.label
  find_name a := by cases a <;> decide

instance : Inhabited AdapterType := ⟨.standard⟩

/-- The media that the offer of a call carries. -/
inductive OfferMedia
  | audio
  | video
  deriving DecidableEq

def OfferMedia.name : OfferMedia → String
  | audio => "audio"
  | video => "video"

def OfferMedia.label : OfferMedia → String
  | audio => "Audio"
  | video => "Video"

instance : Vocabulary OfferMedia where
  all := [.audio, .video]
  name := OfferMedia.name
  label := OfferMedia.label
  find_name a := by cases a <;> decide

instance : Inhabited OfferMedia := ⟨.audio⟩

/-- Whether the microphone may be used when the call starts. -/
inductive MicPermission
  | granted
  | denied
  | undetermined
  deriving DecidableEq

def MicPermission.name : MicPermission → String
  | granted => "granted"
  | denied => "denied"
  | undetermined => "undetermined"

def MicPermission.label : MicPermission → String
  | granted => "Granted"
  | denied => "Denied"
  | undetermined => "Undetermined"

instance : Vocabulary MicPermission where
  all := [.granted, .denied, .undetermined]
  name := MicPermission.name
  label := MicPermission.label
  find_name a := by cases a <;> decide

/-- Only a permission already given counts. -/
def MicPermission.permits : MicPermission → Bool
  | granted => true
  | _ => false

/-- Everything known of a call when it starts. -/
structure CallSetup where
  direction : Direction
  id : Identifier
  phase : Phase
  /-- Which of the contacts the call is with. -/
  contact : Nat
  /-- When the offer was sent, in milliseconds since 1970. -/
  sentAt : UInt64
  adapter : AdapterType := default
  offer : OfferMedia
  mic : MicPermission
  deriving DecidableEq

namespace CallSetup

/-- A call placed here at the moment `now`, under an identifier drawn for it. -/
def placed (now : UInt64) (draw : Identifier) (contact : Nat) (offer : OfferMedia)
    (mic : MicPermission) : CallSetup where
  direction := .outgoing
  id := draw.asRandom
  phase := .dialing
  contact := contact
  sentAt := now
  offer := offer
  mic := mic

/-- A call offered from the other end, under an identifier drawn for it. -/
def offered (sentAt : UInt64) (draw : Identifier) (contact : Nat) (offer : OfferMedia)
    (mic : MicPermission) : CallSetup where
  direction := .incoming
  id := draw.asRandom
  phase := .answering
  contact := contact
  sentAt := sentAt
  offer := offer
  mic := mic

/-- The same call with its media routed as given. -/
def routedBy (setup : CallSetup) (adapter : AdapterType) : CallSetup :=
  { setup with adapter := adapter }

end CallSetup

end CallLifecycle
