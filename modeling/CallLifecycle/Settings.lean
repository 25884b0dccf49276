/-
How strictly calls are held to their rules.
-/
import CallLifecycle.Reporting

namespace CallLifecycle

/-- The settings of all calls; where nothing is said, calls are held to every rule. -/
structure Settings where
  /-- Whether a call may move only as the transition table says. -/
  enforceTable : Bool := true
  /-- Whether a fatal defect ends the program that caused it. -/
  abortOnFatal : Bool := true
  deriving DecidableEq, Inhabited

/-- Settings as diagnostics show them. -/
def Settings.summary (s : Settings) : String :=
  "CallConfig \x7b enforce_transition_table: " ++ flagWord s.enforceTable ++
    ", panic_on_fatal_defect: " ++ flagWord s.abortOnFatal ++ " \x7d"

/-- The reporter that a call has unless it is given one. -/
def Settings.reporter (s : Settings) : Reporter :=
  .logging s.abortOnFatal

end CallLifecycle
