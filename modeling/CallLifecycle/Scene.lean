/-
Scenes, and what happens in them.

A scene is a call and its surroundings.  What happens in it is traced, in order:
defects, log lines, notices to a listener, acceptances that run, requests to a
record.  A notice is traced together with the scene that its listener can read
while it is being told, so what a callback sees can be compared with what an
operation leaves behind.

The functions on `Progress` are the parts of an operation that cannot fail.  Each
takes a scene and its trace so far and gives both as they are afterwards.
-/
import CallLifecycle.Call

namespace CallLifecycle

/-- A call and what surrounds it. -/
structure Scene where
  call : Call
  around : Surroundings

/-- One thing that happens in a scene. -/
inductive Happening
  | reported (d : Defect)
  | noted (note : Note)
  /-- A listener takes a notice of the call, and can read the scene meanwhile. -/
  | notified (listener : Nat) (change : Change) (seen : Scene)
  | ran (acceptance : Acceptance)
  /-- A record is asked to become another kind. -/
  | requested (record : Nat) (kind : RecordKind)

/-- Everything that happened, oldest first. -/
abbrev Trace := List Happening

/-! ### What a trace shows -/

namespace Trace

/-- The log lines of a trace. -/
def notes (trace : Trace) : List Note :=
  trace.filterMap fun
    | .noted note => some note
    | _ => none

/-- The defects of a trace. -/
def defects (trace : Trace) : List Defect :=
  trace.filterMap fun
    | .reported d => some d
    | _ => none

/-- The acceptances that ran. -/
def acceptances (trace : Trace) : List Acceptance :=
  trace.filterMap fun
    | .ran acceptance => some acceptance
    | _ => none

/-- A notice as a listener takes it: who, what, and the scene it can read meanwhile. -/
structure Delivery where
  listener : Nat
  change : Change
  seen : Scene

/-- The notices that were taken. -/
def deliveries (trace : Trace) : List Delivery :=
  trace.filterMap fun
    | .notified listener change seen => some ⟨listener, change, seen⟩
    | _ => none

/-- Whether a notice was taken by a callback and not by a queue. -/
def Delivery.isCallback (d : Delivery) : Bool :=
  d.seen.around.listeners[d.listener]?.any (·.outlet == .callback)

/-- The notices that were taken by callbacks. -/
def callbacks (trace : Trace) : List Delivery :=
  (deliveries trace).filter (·.isCallback)

end Trace

/-- What happens when a reporter is given a defect. -/
def Reporter.happenings (reporter : Reporter) (d : Defect) : Trace :=
  .reported d :: if reporter.logs then [.noted (.defect d)] else []

/-! ### What a scene calls for -/

/-- A record that is to become its completed counterpart. -/
structure Promotion where
  record : Nat
  old : RecordKind
  new : RecordKind
  deriving DecidableEq

namespace Scene

/-- The listener that follows the call, by number, if somebody still holds it. -/
def audience? (scene : Scene) : Option (Nat × Listener) := do
  let i ← scene.call.listener
  let listener ← scene.around.liveListener? i
  return (i, listener)

/-- What the linked record is to become: an incomplete one is completed when the call connects. -/
def promotion? (scene : Scene) : Option Promotion :=
  if scene.call.phase = .connected then do
    let i ← scene.call.record
    let record ← scene.around.records[i]?
    let new ← record.kind.completed?
    return ⟨i, record.kind, new⟩
  else none

/-- The kind of the record that is linked to the call. -/
def recordKind? (scene : Scene) : Option RecordKind :=
  scene.call.record.bind fun i => scene.around.records[i]?.map (·.kind)

end Scene

/-! ### What comes of it -/

/-- How far an operation has come: the scene as it is now, and what has happened. -/
structure Progress where
  scene : Scene
  trace : Trace

namespace Progress

/-- Adds to the trace. -/
def add (happenings : Trace) (p : Progress) : Progress :=
  { p with trace := p.trace ++ happenings }

/-- Changes the call. -/
def mapCall (f : Call → Call) (p : Progress) : Progress :=
  { p with scene := { p.scene with call := f p.scene.call } }

/-- Changes the surroundings. -/
def mapAround (f : Surroundings → Surroundings) (p : Progress) : Progress :=
  { p with scene := { p.scene with around := f p.scene.around } }

/-- Tells the call's listener of a change, if there is one and somebody still holds it. -/
def notify (change : Change) (p : Progress) : Progress :=
  match p.scene.audience? with
  | none => p
  | some (i, listener) =>
    if listener.outlet = .closed then p.add [.noted .receiverGone]
    else
      (p.add [.notified i change p.scene]).mapAround
        (·.modifyListener i (Listener.enqueue ⟨p.scene.call.id, change⟩))

/-- Asks the linked record to become its completed counterpart, if that is due. -/
def promoteRecord (p : Progress) : Progress :=
  match p.scene.promotion? with
  | none => p
  | some due =>
    (p.add [.noted (.recordPromoted due.old due.new p.scene.call.label),
      .requested due.record due.new]).mapAround
        (·.modifyRecord due.record (Record.request due.new))

/-- Throws away the queued acceptance, if there is one. -/
def discardDeferred (p : Progress) : Progress :=
  if p.scene.call.deferred.isSome then
    (p.mapCall ({ · with deferred := none })).add [.noted (.deferredDiscarded p.scene.call.label)]
  else p

/-- Puts the call into a phase, and tells nobody yet.

An acceptance stays queued only in `accepting`, and a linked record follows a call
that connects. -/
def enter (new : Phase) (p : Progress) : Progress :=
  let call := p.scene.call
  let moved := (p.mapCall ({ · with phase := new })).add
    [.noted (.phaseChanged call.phase new call.label)]
  if new = .accepting then moved.promoteRecord else moved.discardDeferred.promoteRecord

/-- Runs an acceptance. -/
def runAcceptance (acceptance : Acceptance) (p : Progress) : Progress :=
  (p.add [.ran acceptance]).mapAround (·.applyAll acceptance.effects)

end Progress

end CallLifecycle
