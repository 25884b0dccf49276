/-
A switchboard: several calls among the same surroundings.

Calls are numbered in the order in which they start, and a number is not used
again once its call is gone.  What happens on a switchboard is an *event*: an
operation on one call, a call that goes away, a step from outside.  An event finds
one call at most and leaves the others alone, so calls meet only in what they
share.
-/
import CallLifecycle.Operation

namespace CallLifecycle

/-- Several calls, by number, among the same surroundings. -/
structure Switchboard where
  calls : List (Option Call)
  around : Surroundings

/-- Something that happens on a switchboard. -/
inductive Event
  /-- Whoever drives a call performs an operation on it. -/
  | perform (call : Nat) (thread : Thread) (op : Operation)
  /-- The queued acceptance is handed out, and whoever took it runs it. -/
  | takeAndRun (call : Nat) (thread : Thread)
  /-- A call goes away. -/
  | drop (call : Nat)
  | outside (step : OutsideStep)
  deriving DecidableEq

/-- What an event comes to. -/
inductive Response
  | noCall
  /-- The listener to attach is not held by anybody, so nothing was done. -/
  | noListener
  | noReceiver
  | reply (reply : Reply)
  /-- An acceptance was taken and run, and failed with the error if there is one. -/
  | ranTaken (failure : Option CallFailure)
  | drained (notices : List Notice)
  deriving DecidableEq

/-- What an event leaves behind. -/
structure Aftermath where
  board : Switchboard
  trace : Trace
  response : Response

/-- The listener that an operation attaches. -/
def Operation.listener? : Operation → Option Nat
  | attach listener => some listener
  | _ => none

namespace Switchboard

/-- The call of a number, unless it is gone. -/
def call? (board : Switchboard) (i : Nat) : Option Call :=
  board.calls[i]?.join

/-- The calls that are not gone, by number. -/
def liveCalls (board : Switchboard) : List Call :=
  board.calls.filterMap id

/-- Starts a call, which reads its contact's address now and never again. -/
def start (board : Switchboard) (setup : CallSetup) (settings : Settings) (reporter : Reporter)
    (owner : Thread) : Aftermath :=
  let address := (board.around.contact setup.contact).address
  let call := Call.start setup address settings reporter owner
  { board := { board with calls := board.calls ++ [some call] }
    trace := [.noted (.created call.label call.direction call.phase call.offer)]
    response := .reply .done }

/-- The switchboard once a call and the surroundings are as a turn leaves them. -/
def settle (board : Switchboard) (i : Nat) (scene : Scene) : Switchboard :=
  { calls := board.calls.set i (some scene.call), around := scene.around }

/-- Performs an operation on a call. -/
def perform (board : Switchboard) (i : Nat) (thread : Thread) (op : Operation) : Aftermath :=
  match board.call? i with
  | none => ⟨board, [], .noCall⟩
  | some call =>
    if op.listener?.any fun l => (board.around.liveListener? l).isNone then
      ⟨board, [], .noListener⟩
    else
      let outcome := Scene.perform ⟨call, board.around⟩ thread op
      ⟨board.settle i outcome.scene, outcome.trace, .reply outcome.reply⟩

/-- Takes the queued acceptance of a call and runs it. -/
def takeAndRun (board : Switchboard) (i : Nat) (thread : Thread) : Aftermath :=
  let after := board.perform i thread .handOver
  match after.response with
  | .reply (.handed (some acceptance)) =>
    { board := { after.board with around := after.board.around.applyAll acceptance.effects }
      trace := after.trace ++ [.ran acceptance]
      response := .ranTaken acceptance.failure }
  | _ => after

/-- Lets a call go away. -/
def drop (board : Switchboard) (i : Nat) : Aftermath :=
  match board.call? i with
  | none => ⟨board, [], .noCall⟩
  | some call =>
    let outcome := Scene.close ⟨call, board.around⟩
    { board := { calls := board.calls.set i none, around := outcome.scene.around }
      trace := outcome.trace
      response := .reply outcome.reply }

/-- Takes a step from outside; draining a queue gives what was queued. -/
def outside (board : Switchboard) (step : OutsideStep) : Aftermath :=
  { board := { board with around := board.around.apply step }
    trace := []
    response :=
      match step with
      | .receiverDrain i =>
        match board.around.waiting? i with
        | some notices => .drained notices
        | none => .noReceiver
      | _ => .reply .done }

/-- What an event makes of a switchboard. -/
def handle (board : Switchboard) : Event → Aftermath
  | .perform i thread op => board.perform i thread op
  | .takeAndRun i thread => board.takeAndRun i thread
  | .drop i => board.drop i
  | .outside step => board.outside step

/-- The aftermaths of some events, one after the other. -/
def run (board : Switchboard) : List Event → List Aftermath
  | [] => []
  | event :: rest =>
    let after := board.handle event
    after :: after.board.run rest

/-- For every two live calls, whether they are one. -/
def sameness (board : Switchboard) : List (List Bool) :=
  board.liveCalls.map fun a => board.liveCalls.map a.isSame

end Switchboard

end CallLifecycle
