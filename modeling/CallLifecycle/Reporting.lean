/-
Defects: broken contracts between a call and whoever drives it.

A defect is a mistake in the driving program and not a failure of the call, so
it is reported and the call carries on.  The one exception is a call used off its
own context: that defect is fatal, and a reporter may give up on it.
-/
import CallLifecycle.Phase

namespace CallLifecycle

/-- A thread of execution; each call belongs to the one that made it. -/
abbrev Thread := Nat

/-- How bad a defect is. -/
inductive Severity
  | fatal
  | anomaly
  deriving DecidableEq

def Severity.name : Severity → String
  | fatal => "fatal"
  | anomaly => "anomaly"

/-- A broken contract. -/
inductive Defect
  /-- The operation was called on a thread that does not own the call. -/
  | offContext (operation : String) (owner current : Thread)
  | illegalTransition (old new : Phase)
  | deferredOutsideAccepting (phase : Phase)
  /-- A second acceptance was queued and the first is gone. -/
  | deferredReplaced
  /-- The media engine became ready for an answered call with nothing queued. -/
  | acceptingWithoutDeferred
  | recordRelinked
  | deregisteredBeforeRegistered
  | notEndedAtTeardown (phase : Phase)
  /-- The call went away registered and not deregistered, or the other way round. -/
  | registrationMismatch (registered deregistered : Bool)
  deriving DecidableEq

namespace Defect

/-- Only use off the context is fatal. -/
def severity : Defect → Severity
  | offContext .. => .fatal
  | _ => .anomaly

/-- What a defect says; threads have no names, so their place is marked. -/
def message : Defect → String
  | offContext operation _ _ =>
    operation ++ " called off the call context (owner ThreadId(_), current ThreadId(_))"
  | illegalTransition old new => "illegal state transition " ++ old.name ++ " -> " ++ new.name
  | deferredOutsideAccepting phase => "deferred acceptance set while in state " ++ phase.name
  | deferredReplaced => "pending deferred acceptance replaced"
  | acceptingWithoutDeferred => "media ready while accepting with no deferred acceptance queued"
  | recordRelinked => "call record linked twice"
  | deregisteredBeforeRegistered => "call removed from system without being reported"
  | notEndedAtTeardown phase => "call dropped in non-terminal state " ++ phase.name
  | registrationMismatch registered deregistered =>
    "system registration mismatch at teardown (reported: " ++ flagWord registered ++
      ", removed: " ++ flagWord deregistered ++ ")"

/-- What is said when a strict reporter gives up on a defect. -/
def abortMessage (d : Defect) : String :=
  "call session defect: " ++ d.message

end Defect

/-- Where defects go, and which of the fatal ones are the end of what a call is doing. -/
structure Reporter where
  /-- Whether defects are written to the log. -/
  logs : Bool
  /-- Which defects the reporter gives up on, as long as they are fatal. -/
  givesUpOn : Defect → Bool

namespace Reporter

/-- Defects are kept for whoever asks. -/
def collecting : Reporter where
  logs := false
  givesUpOn _ := false

/-- Defects are logged, and a strict reporter gives up on every fatal one. -/
def logging (strict : Bool) : Reporter where
  logs := true
  givesUpOn _ := strict

/-- Whether the reporter gives up on a defect; on one that is not fatal nobody does. -/
def abortsOn (reporter : Reporter) (d : Defect) : Bool :=
  d.severity == .fatal && reporter.givesUpOn d

end Reporter

end CallLifecycle
