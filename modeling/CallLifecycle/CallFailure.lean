/-
How an operation on a call can fail.

A failure is a cause and what it was about; its wording is `CallFailure.message`.
-/
import CallLifecycle.Phase

namespace CallLifecycle

/-- Why an operation failed. -/
inductive CallFailure
  | illegalTransition (old new : Phase)
  | deferredOutsideAccepting (phase : Phase)
  | recordAlreadyLinked
  | notRinging (phase : Phase)
  | noDeferredAcceptance
  /-- The work that completes answering failed, for the reason given. -/
  | acceptance (reason : String)
  /-- The settings could not be saved, for the reason given. -/
  | settings (reason : String)
  deriving DecidableEq

/-- What a failure says. -/
def CallFailure.message : CallFailure → String
  | illegalTransition old new =>
    "illegal call state transition: " ++ old.name ++ " -> " ++ new.name
  | deferredOutsideAccepting phase => "deferred acceptance set while in state " ++ phase.name
  | recordAlreadyLinked => "call record already linked"
  | notRinging phase => "cannot accept a call in state " ++ phase.name
  | noDeferredAcceptance => "no deferred acceptance queued"
  | acceptance reason => "acceptance failed: " ++ reason
  | settings reason => "config error: " ++ reason

end CallLifecycle
