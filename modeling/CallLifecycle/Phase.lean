/-
The phases of a call.

A call is live until it ends, and it ends for good: eight of the seventeen phases
are outcomes and nothing follows an outcome.  Ringing at this end is split in
two, because the system may ring before the media engine can answer: a call is
*anticipatory* while the engine is not ready and *ready to answer* once it is.
When the user answers an anticipatory call it waits in `accepting`.

`Phase.mayBecome` is the transition table.  It is stated through `successors`,
the live phases that a phase leads to; every live phase may also stay what it is
and may end.
-/
import CallLifecycle.Vocabulary

namespace CallLifecycle

/-- Where a call stands in its life. -/
inductive Phase
  | idle
  | dialing
  | answering
  | remoteRinging
  /-- Ringing here, and the media engine is not ready. -/
  | ringingAnticipatory
  /-- Ringing here, and the media engine is ready. -/
  | ringingReadyToAnswer
  /-- Answered here, and the media engine is not ready. -/
  | accepting
  | connected
  | reconnecting
  | localFailure
  | localHangup
  | remoteHangup
  | remoteHangupNeedPermission
  | remoteBusy
  | answeredElsewhere
  | declinedElsewhere
  | busyElsewhere
  deriving DecidableEq

namespace Phase

/-- Every phase once, the live ones first. -/
def all : List Phase :=
  [idle, dialing, answering, remoteRinging, ringingAnticipatory, ringingReadyToAnswer, accepting,
    connected, reconnecting, localFailure, localHangup, remoteHangup, remoteHangupNeedPermission,
    remoteBusy, answeredElsewhere, declinedElsewhere, busyElsewhere]

/-- The word a phase is written as. -/
def name : Phase → String
  | idle => "idle"
  | dialing => "dialing"
  | answering => "answering"
  | remoteRinging => "remoteRinging"
  | ringingAnticipatory => "localRinging_Anticipatory"
  | ringingReadyToAnswer => "localRinging_ReadyToAnswer"
  | accepting => "accepting"
  | connected => "connected"
  | reconnecting => "reconnecting"
  | localFailure => "localFailure"
  | localHangup => "localHangup"
  | remoteHangup => "remoteHangup"
  | remoteHangupNeedPermission => "remoteHangupNeedPermission"
  | remoteBusy => "remoteBusy"
  | answeredElsewhere => "answeredElsewhere"
  | declinedElsewhere => "declinedElsewhere"
  | busyElsewhere => "busyElsewhere"

/-- The word a phase is shown as in diagnostics. -/
def label : Phase → String
  | idle => "Idle"
  | dialing => "Dialing"
  | answering => "Answering"
  | remoteRinging => "RemoteRinging"
  | ringingAnticipatory => "LocalRingingAnticipatory"
  | ringingReadyToAnswer => "LocalRingingReadyToAnswer"
  | accepting => "Accepting"
  | connected => "Connected"
  | reconnecting => "Reconnecting"
  | localFailure => "LocalFailure"
  | localHangup => "LocalHangup"
  | remoteHangup => "RemoteHangup"
  | remoteHangupNeedPermission => "RemoteHangupNeedPermission"
  | remoteBusy => "RemoteBusy"
  | answeredElsewhere => "AnsweredElsewhere"
  | declinedElsewhere => "DeclinedElsewhere"
  | busyElsewhere => "BusyElsewhere"

instance : Vocabulary Phase where
  all := all
  name := name
  label := label
  find_name a := by cases a <;> decide

/-- Whether the phase is an outcome of the call. -/
def isOver : Phase → Bool
  | localFailure | localHangup | remoteHangup | remoteHangupNeedPermission | remoteBusy
  | answeredElsewhere | declinedElsewhere | busyElsewhere => true
  | _ => false

/-- The live phases, other than itself, that a phase leads to. -/
def successors : Phase → List Phase
  | idle => [dialing, answering]
  | dialing => [remoteRinging]
  | remoteRinging => [connected]
  | answering => [ringingAnticipatory, ringingReadyToAnswer]
  | ringingAnticipatory => [ringingReadyToAnswer, accepting]
  | ringingReadyToAnswer => [connected]
  | accepting => [connected]
  | connected => [reconnecting]
  | reconnecting => [connected]
  | _ => []

/-- The transition table: a live phase may end, stay, or become one of its successors. -/
def mayBecome (old new : Phase) : Bool :=
  !old.isOver && (new.isOver || old == new || old.successors.contains new)

/-- The rule a call follows: the table if that is enforced, and else only that outcomes last. -/
def allows (enforced : Bool) (old new : Phase) : Bool :=
  if enforced then old.mayBecome new else !old.isOver

theorem mayBecome_of_isOver {old : Phase} (h : old.isOver = true) (new : Phase) :
    old.mayBecome new = false := by
  simp [mayBecome, h]

theorem allows_of_isOver {old : Phase} (h : old.isOver = true) (enforced : Bool) (new : Phase) :
    allows enforced old new = false := by
  cases enforced <;> simp [allows, mayBecome, h]

/-- What the table allows is allowed where it is not enforced. -/
theorem allows_false_of_mayBecome {old new : Phase} (h : old.mayBecome new = true) :
    allows false old new = true := by
  cases he : old.isOver
  · simp [allows, he]
  · simp [mayBecome_of_isOver he] at h

end Phase

end CallLifecycle
