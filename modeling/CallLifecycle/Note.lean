/-
What a call and its surroundings write to the log.

A note is an occurrence worth logging.  How loud it is and what it says are read
off it by `Note.level` and `Note.text`, so whoever follows a call never compares
wordings.
-/
import CallLifecycle.CallFailure
import CallLifecycle.CallSetup
import CallLifecycle.Address
import CallLifecycle.Decimal
import CallLifecycle.Reporting
import CallLifecycle.History
import CallLifecycle.Network

namespace CallLifecycle

/-- How loud a log line is. -/
inductive Level
  | trace
  | debug
  | info
  | warn
  | error
  deriving DecidableEq

namespace Level

def name : Level → String
  | trace => "trace"
  | debug => "debug"
  | info => "info"
  | warn => "warn"
  | error => "error"

def label : Level → String
  | trace => "TRACE"
  | debug => "DEBUG"
  | info => "INFO"
  | warn => "WARN"
  | error => "ERROR"

instance : Vocabulary Level where
  all := [trace, debug, info, warn, error]
  name := name
  label := label
  find_name a := by cases a <;> decide

end Level

/-- What a call is called in the log. -/
structure CallLabel where
  address : Address
  id : Identifier
  signalingId : Option UInt64
  deriving DecidableEq

/-- A number that may be missing, as diagnostics show it. -/
def optionalNumber : Option UInt64 → String
  | none => "None"
  | some n => "Some(" ++ Decimal.text n.toNat ++ ")"

/-- The text of a call's label. -/
def CallLabel.text (call : CallLabel) : String :=
  "CallSession \x7b" ++ call.address.text ++ ", local_id: " ++ call.id.text ++
    ", signaling_id: " ++ optionalNumber call.signalingId ++ "\x7d"

/-- An occurrence worth logging. -/
inductive Note
  | created (call : CallLabel) (direction : Direction) (phase : Phase) (offer : OfferMedia)
  | dropping (call : CallLabel)
  | phaseChanged (old new : Phase) (call : CallLabel)
  /-- A queued acceptance was thrown away because the call left `accepting`. -/
  | deferredDiscarded (call : CallLabel)
  /-- An acceptance was queued because the media engine is not ready. -/
  | acceptanceDeferred (call : CallLabel)
  | answerIgnored (phase : Phase) (call : CallLabel)
  | engineReadyIgnored (phase : Phase)
  | acceptanceFailed (call : CallLabel) (error : CallFailure)
  | recordPromoted (old new : RecordKind) (call : CallLabel)
  | signalingIdReassigned (old new : UInt64)
  | signalingIdSet (call : CallLabel)
  | mutedChanged (old new : Bool)
  | localVideoSet (enabled : Bool)
  | onHoldChanged (old new : Bool)
  | remoteVideoSet (enabled : Bool)
  | remoteSharingSet (sharing : Bool)
  | routeSet (route : Route)
  /-- A queue's reading end was gone when a notice was sent. -/
  | receiverGone
  | defect (d : Defect)
  | settingsSaved (file : String)
  | settingsIgnored (file : String)
  deriving DecidableEq

namespace Note

/-- How loud a note is. -/
def level : Note → Level
  | created .. | deferredDiscarded _ | acceptanceDeferred _ | recordPromoted .. | signalingIdSet _
  | remoteVideoSet _ | remoteSharingSet _ => .info
  | dropping _ | phaseChanged .. | engineReadyIgnored _ | mutedChanged .. | localVideoSet _
  | onHoldChanged .. | routeSet _ | receiverGone | settingsSaved _ => .debug
  | answerIgnored .. | signalingIdReassigned .. | settingsIgnored _ => .warn
  | acceptanceFailed .. | defect _ => .error

/-- What a note says. -/
def text : Note → String
  | created call direction phase offer =>
    "created " ++ call.text ++ ": direction=" ++ direction.label ++ " state=" ++ phase.name ++
      " offer=" ++ offer.label
  | dropping call => "dropping " ++ call.text
  | phaseChanged old new call =>
    "state changed: " ++ old.name ++ " -> " ++ new.name ++ " for call: " ++ call.text
  | deferredDiscarded call => "discarding deferred acceptance for call: " ++ call.text
  | acceptanceDeferred call => "media not ready, deferring acceptance for call: " ++ call.text
  | answerIgnored phase call =>
    "ignoring accept in state " ++ phase.name ++ " for call: " ++ call.text
  | engineReadyIgnored phase => "media ready in state " ++ phase.name ++ ", nothing to do"
  | acceptanceFailed call error =>
    "acceptance failed for call " ++ call.text ++ ": " ++ error.message
  | recordPromoted old new call =>
    "call record " ++ old.label ++ " -> " ++ new.label ++ " for call: " ++ call.text
  | signalingIdReassigned old new =>
    "signaling id reassigned " ++ Decimal.text old.toNat ++ " -> " ++ Decimal.text new.toNat
  | signalingIdSet call => "signaling id set for call: " ++ call.text
  | mutedChanged old new => "muted changed: " ++ flagWord old ++ " -> " ++ flagWord new
  | localVideoSet enabled => "local video enabled: " ++ flagWord enabled
  | onHoldChanged old new => "isOnHold changed: " ++ flagWord old ++ " -> " ++ flagWord new
  | remoteVideoSet enabled => "remote video enabled: " ++ flagWord enabled
  | remoteSharingSet sharing => "remote sharing screen: " ++ flagWord sharing
  | routeSet route => "network route: " ++ route.adapter.label
  | receiverGone => "call event receiver dropped"
  | defect d =>
    match d.severity with
    | .fatal => "fatal call session defect: " ++ d.message
    | .anomaly => "call session defect: " ++ d.message
  | settingsSaved file => "call config saved to " ++ file
  | settingsIgnored file => "ignoring unreadable call config " ++ file

end Note

end CallLifecycle
