/-
Turns: what an operation does to a call, step by step.

A turn ends with a value or it stops, because a rule refuses the operation or
because a reporter gives up on a fatal defect.  Stopping undoes nothing:
what was done up to then stays done.  A turn stops nowhere but in `report` and
`refuse`; every other step is a function on `Progress`.
-/
import CallLifecycle.Scene

namespace CallLifecycle

/-- Why a turn stops. -/
inductive Stop
  | refused (e : CallFailure)
  | aborted (d : Defect)
  deriving DecidableEq

/-- A step of an operation on a call. -/
abbrev Turn := EStateM Stop Progress

namespace Turn

/-- The call as it is now. -/
def call : Turn Call :=
  return (← get).scene.call

/-- Does what cannot fail. -/
def act (f : Progress → Progress) : Turn Unit :=
  modify f

/-- Changes the call. -/
def modifyCall (f : Call → Call) : Turn Unit :=
  act (Progress.mapCall f)

/-- Writes to the log. -/
def note (n : Note) : Turn Unit :=
  act (Progress.add [.noted n])

/-- Tells the call's listener of a change. -/
def notify (change : Change) : Turn Unit :=
  act (Progress.notify change)

/-- Refuses the operation. -/
def refuse {α : Type} (e : CallFailure) : Turn α :=
  throw (.refused e)

/-- Reports a defect as the call's reporter takes it, which may end the turn. -/
def report (d : Defect) : Turn Unit := do
  let reporter := (← call).reporter
  act (Progress.add (reporter.happenings d))
  if reporter.abortsOn d then
    throw (.aborted d)

/-- Reports an operation that is not called on the call's own thread. -/
def checkContext (thread : Thread) (operation : String) : Turn Unit := do
  let owner := (← call).owner
  if thread ≠ owner then
    report (.offContext operation owner thread)

/-- Moves the call to another phase if its rule allows that, and tells nobody yet. -/
def move (new : Phase) : Turn Unit := do
  let call ← call
  if Phase.allows call.enforced call.phase new then
    act (Progress.enter new)
  else
    report (.illegalTransition call.phase new)
    refuse (.illegalTransition call.phase new)

/-- Queues an acceptance; the newest wins, and the one it replaces is reported. -/
def queue (acceptance : Acceptance) : Turn Unit := do
  let replaced := (← call).deferred.isSome
  modifyCall ({ · with deferred := some acceptance })
  if replaced then
    report .deferredReplaced

/-! ### How the steps run -/

@[simp] theorem run_call (p : Progress) : call.run p = .ok p.scene.call p := rfl

@[simp] theorem run_act (f : Progress → Progress) (p : Progress) :
    (act f).run p = .ok () (f p) := rfl

@[simp] theorem run_modifyCall (f : Call → Call) (p : Progress) :
    (modifyCall f).run p = .ok () (p.mapCall f) := rfl

@[simp] theorem run_note (n : Note) (p : Progress) :
    (note n).run p = .ok () (p.add [.noted n]) := rfl

@[simp] theorem run_notify (change : Change) (p : Progress) :
    (notify change).run p = .ok () (p.notify change) := rfl

@[simp] theorem run_refuse {α : Type} (e : CallFailure) (p : Progress) :
    (refuse e : Turn α).run p = .error (.refused e) p := rfl

theorem run_report (d : Defect) (p : Progress) :
    (report d).run p =
      if p.scene.call.reporter.abortsOn d then
        .error (.aborted d) (p.add (p.scene.call.reporter.happenings d))
      else .ok () (p.add (p.scene.call.reporter.happenings d)) := by
  simp only [report, EStateM.run_bind, run_call, run_act]
  split <;> rfl

/-- A defect that is not fatal ends no turn. -/
theorem run_report_anomaly {d : Defect} (h : d.severity = .anomaly) (p : Progress) :
    (report d).run p = .ok () (p.add (p.scene.call.reporter.happenings d)) := by
  rw [run_report, if_neg]
  simp [Reporter.abortsOn, h]

/-- Nothing comes of a check on the call's own thread. -/
@[simp] theorem run_checkContext_owner (operation : String) (p : Progress) :
    (checkContext p.scene.call.owner operation).run p = .ok () p := by
  simp only [checkContext, EStateM.run_bind, run_call, ne_eq, not_true_eq_false, if_false]
  rfl

/-- A check on any other thread reports the operation. -/
theorem run_checkContext_of_ne {thread : Thread} {p : Progress} (operation : String)
    (h : thread ≠ p.scene.call.owner) :
    (checkContext thread operation).run p =
      (report (.offContext operation p.scene.call.owner thread)).run p := by
  simp only [checkContext, EStateM.run_bind, run_call, ne_eq, h, not_false_eq_true, if_true]

theorem run_move (new : Phase) (p : Progress) :
    (move new).run p =
      if Phase.allows p.scene.call.enforced p.scene.call.phase new then .ok () (p.enter new)
      else
        .error (.refused (.illegalTransition p.scene.call.phase new))
          (p.add (p.scene.call.reporter.happenings
            (.illegalTransition p.scene.call.phase new))) := by
  simp only [move, EStateM.run_bind, run_call]
  split
  · rfl
  · rw [EStateM.run_bind, run_report_anomaly rfl]
    rfl

theorem run_queue (acceptance : Acceptance) (p : Progress) :
    (queue acceptance).run p =
      let queued := p.mapCall ({ · with deferred := some acceptance })
      .ok () (if p.scene.call.deferred.isSome then
        queued.add (p.scene.call.reporter.happenings .deferredReplaced) else queued) := by
  simp only [queue, EStateM.run_bind, run_call, run_modifyCall]
  split
  · rw [run_report_anomaly rfl]
    rfl
  · rfl

end Turn

end CallLifecycle
