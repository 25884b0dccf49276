/-
The call history: one record per call.

A record says what became of a call.  One that was made while the call was still
incomplete is *promoted* when the call connects, and only to its completed
counterpart, so a promotion happens at most once to a record that takes it.
-/
import CallLifecycle.Vocabulary

namespace CallLifecycle

/-- What a record says became of its call. -/
inductive RecordKind
  | incoming
  | outgoing
  | incomingIncomplete
  | outgoingIncomplete
  | incomingMissed
  | outgoingMissed
  | incomingDeclined
  | incomingAnsweredElsewhere
  | incomingDeclinedElsewhere
  | incomingBusyElsewhere
  deriving DecidableEq

namespace RecordKind

def all : List RecordKind :=
  [incoming, outgoing, incomingIncomplete, outgoingIncomplete, incomingMissed, outgoingMissed,
    incomingDeclined, incomingAnsweredElsewhere, incomingDeclinedElsewhere, incomingBusyElsewhere]

def name : RecordKind → String
  | incoming => "incoming"
  | outgoing => "outgoing"
  | incomingIncomplete => "incoming_incomplete"
  | outgoingIncomplete => "outgoing_incomplete"
  | incomingMissed => "incoming_missed"
  | outgoingMissed => "outgoing_missed"
  | incomingDeclined => "incoming_declined"
  | incomingAnsweredElsewhere => "incoming_answered_elsewhere"
  | incomingDeclinedElsewhere => "incoming_declined_elsewhere"
  | incomingBusyElsewhere => "incoming_busy_elsewhere"

def label : RecordKind → String
  | incoming => "Incoming"
  | outgoing => "Outgoing"
  | incomingIncomplete => "IncomingIncomplete"
  | outgoingIncomplete => "OutgoingIncomplete"
  | incomingMissed => "IncomingMissed"
  | outgoingMissed => "OutgoingMissed"
  | incomingDeclined => "IncomingDeclined"
  | incomingAnsweredElsewhere => "IncomingAnsweredElsewhere"
  | incomingDeclinedElsewhere => "IncomingDeclinedElsewhere"
  | incomingBusyElsewhere => "IncomingBusyElsewhere"

instance : Vocabulary RecordKind where
  all := all
  name := name
  label := label
  find_name a := by cases a <;> decide

/-- What an incomplete record becomes when its call connects. -/
def completed? : RecordKind → Option RecordKind
  | incomingIncomplete => some incoming
  | outgoingIncomplete => some outgoing
  | _ => none

/-- A completed record is not completed again. -/
theorem completed?_of_completed {old new : RecordKind} (h : old.completed? = some new) :
    new.completed? = none := by
  cases old <;> cases h <;> rfl

end RecordKind

/-- A record of the call history. -/
structure Record where
  kind : RecordKind
  /-- Whether the record keeps its kind whatever it is asked to become. -/
  frozen : Bool
  /-- How often the record was asked to become another kind. -/
  requests : Nat := 0
  deriving DecidableEq

/-- Asks a record to become another kind. -/
def Record.request (kind : RecordKind) (r : Record) : Record :=
  { r with kind := if r.frozen then r.kind else kind, requests := r.requests + 1 }

end CallLifecycle
