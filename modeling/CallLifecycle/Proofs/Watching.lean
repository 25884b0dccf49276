/-
Watching changes nothing.

Whoever follows a call is told of it and has no say in it.  So a run in which listeners are
attached and detached comes to the same as the run in which none of that is done: every
other event finds the same calls, is replied to alike, reports and runs the same, and leaves
the same calls behind.  What it may differ in is who was told, and what a queue holds.

This is a veil over listeners.  Attaching and detaching are all that it hides, and everything
else commutes with it.
-/
import CallLifecycle.Proofs.Routing
import CallLifecycle.Proofs.VeiledTraffic

namespace CallLifecycle

open Trace

/-- Whether an event is to change who follows a call. -/
def Event.isWatch : Event → Bool
  | perform _ _ op => op.isWatch
  | _ => false

/-- A switchboard but for who listens. -/
def Switchboard.unwatched (board : Switchboard) : Switchboard where
  calls := board.calls.map (Option.map fun call => { call with listener := none })
  around := { board.around with listeners := [] }

/-- An aftermath but for who listens, and what they are told or take from a queue. -/
def Aftermath.unwatched (after : Aftermath) : Aftermath where
  board := after.board.unwatched
  trace := after.trace.filter (!·.isTelling)
  response :=
    match after.response with
    | .drained _ => .noReceiver
    | response => response

namespace Veil

/-- Listeners are hidden, and nothing else. -/
def unwatched : Veil where
  listeners := true

theorem unwatched_board (board : Switchboard) : unwatched.board board = board.unwatched := rfl

theorem unwatched_aftermath (after : Aftermath) :
    unwatched.aftermath after = after.unwatched := by
  have hhappening : ∀ happening : Happening, unwatched.happening? happening =
      if happening.isTelling then none else some happening := by
    intro happening
    cases happening with
    | noted note => cases note <;> rfl
    | _ => rfl
  have hresponse : unwatched.response after.response = after.unwatched.response := by
    unfold Aftermath.unwatched
    cases after.response <;> rfl
  unfold Veil.aftermath
  rw [unwatched_board, trace_eq_filter hhappening, hresponse]
  rfl

/-- Attaching and detaching are hidden with the listeners. -/
theorem unwatched_scene {e : Episode} (h : e.op.isWatch = true) :
    unwatched.scene e.outcome.scene = unwatched.scene e.scene := by
  obtain ⟨scene, thread, op⟩ := e
  cases op with
  | attach listener =>
      rw [Episode.outcome, Scene.perform_attach]
      split <;> rfl
  | detach =>
      rw [Episode.outcome, Scene.perform_detach]
      split <;> rfl
  | _ => cases h

end Veil

namespace Switchboard

variable {board : Switchboard} {event : Event}

/-- Who follows a call is all that changes when somebody is attached or detached. -/
theorem unwatched_of_watch (h : event.isWatch = true) :
    (board.handle event).board.unwatched = board.unwatched := by
  cases event with
  | perform i thread op =>
      rcases board.perform_cases i thread op with ⟨e, he, hop, -⟩ | ⟨-, response, hnothing, -⟩
      · have hwatch : e.op.isWatch = true := by
          rw [hop]
          exact h
        rw [handle, perform_of_episode he, ← Veil.unwatched_board, Veil.board_settle,
          Veil.unwatched_scene hwatch, ← Veil.board_settle, settle_of_episode he rfl]
        rfl
      · rw [handle, hnothing]
  | takeAndRun i thread | drop i | outside step => cases h

/-- Every other event comes to what it would if nobody listened. -/
theorem unwatched_handle (h : event.isWatch = false) :
    (board.handle event).unwatched = board.unwatched.handle event := by
  have hpasses : ∀ e, board.episode? event = some e →
      Veil.unwatched.Passes e.scene.call e.thread e.op := by
    intro e he
    refine ⟨fun _ => ?_, nofun, nofun⟩
    rcases episode?_cases he with ⟨i, rfl⟩ | ⟨i, -, hop⟩
    · exact h
    · rw [hop]
      rfl
  have hhandle := Veil.aftermath_handle hpasses
  rwa [Veil.unwatched_aftermath, Veil.unwatched_board,
    Veil.event_of_threads board rfl] at hhandle

/-- **A run comes to what it would if nobody was ever attached or detached.** -/
theorem unwatched_after (events : List Event) :
    ∀ board : Switchboard, (board.after events).unwatched =
      board.unwatched.after (events.filter (!·.isWatch)) := by
  induction events with
  | nil => intro board; rfl
  | cons event rest ih =>
      intro board
      cases h : event.isWatch with
      | true =>
          rw [after_cons, ih, unwatched_of_watch h, List.filter_cons_of_neg (by simp [h])]
      | false =>
          have hboard : (board.handle event).board.unwatched =
              (board.unwatched.handle event).board :=
            congrArg Aftermath.board (unwatched_handle h)
          rw [after_cons, ih, hboard, List.filter_cons_of_pos (by simp [h]), after_cons]

end Switchboard

/-- **A notice goes to whoever follows the call, and watching changes nothing.**  Let whatever
happen on a switchboard, and then one event more.  Every call is followed by whoever was attached to
it last and not detached since.  If the event has news, one notice is taken: by the listener of its
call, if that takes notices by then; and the only queue that is written, but for what steps from
outside do, is the one it goes to.  An operation that is refused and leaves the call where it was
has no news.  What a listener takes in all is what went to it, in order, and a queue is read just
so for as long as it has a reading end.  And unless the event itself is to attach or detach
somebody, it comes to the same as in the run in which nobody was ever attached or detached: in how
it is replied to, in all that happens but tellings, and in what it leaves behind. -/
theorem notices_go_to_latest_listener (board : Switchboard) (past : List Event) (event : Event) :
    let found := board.after past
    let after := found.handle event
    (∀ i first last, board.call? i = some first → found.call? i = some last →
      last.listener = board.follower i first.listener past) ∧
    (deliveries after.trace).map (·.posted) = (found.dispatch? event).toList ∧
    after.board.around.listeners =
      ((found.around.applyAll (found.steps event)).deliver (found.dispatch? event)).listeners ∧
    (∀ e failure, found.episode? event = some e → e.outcome.reply = .refused failure →
      e.outcome.scene.call.phase = e.scene.call.phase → found.dispatch? event = none) ∧
    (∀ l, (board.told l past).map (·.2) = ((board.dispatches past).filter (·.1 = l)).map (·.2)) ∧
    (∀ l waiting, board.around.waiting? l = some waiting →
      .receiverDrop l ∉ board.allSteps past →
        board.received l past = waiting ++ (board.told l past).map (·.2)) ∧
    (event.isWatch = false →
      after.unwatched =
        ((board.after (past.filter (!·.isWatch))).handle event).unwatched) := by
  intro found after
  obtain ⟨htold, hlisteners⟩ := found.handle_delivers event
  refine ⟨?_, htold, hlisteners, ?_, ?_, ?_, ?_⟩
  · intro i first last hfirst hlast
    exact Switchboard.listener_eq_follower past hfirst hlast
  · intro e failure he hreply hphase
    rw [Switchboard.dispatch?_of_episode he, Episode.news?_of_refused hreply hphase]
    rfl
  · intro l
    exact board.told_eq_dispatches l past
  · intro l waiting hwaiting hkept
    exact Switchboard.received_of_kept past hkept hwaiting
  · intro hwatch
    have hbare : (board.after (past.filter (!·.isWatch))).unwatched = found.unwatched := by
      rw [Switchboard.unwatched_after, Switchboard.unwatched_after, List.filter_filter]
      simp
    rw [Switchboard.unwatched_handle hwatch, Switchboard.unwatched_handle hwatch, hbare]

/-- A listener is replaced and then dropped, and the one before it hears no more; the run without
either ends with the same call. -/
theorem replaced_listener_hears_no_more :
    let board : Switchboard := ⟨[some Call.incoming], ⟨[], [], [.observer, .channel]⟩⟩
    let past : List Event :=
      [.perform 0 0 (.attach 0), .perform 0 0 (.setPhase .answering), .perform 0 0 (.attach 1),
        .perform 0 0 (.setSwitch .onHold true), .outside (.listenerDrop 1)]
    let event : Event := .perform 0 0 .engineReady
    let after := (board.after past).handle event
    (board.told 0 past).map (·.2) = [⟨Call.incoming.id, .phase .answering⟩] ∧
      board.received 1 past = [⟨Call.incoming.id, .hold true⟩] ∧
      (deliveries after.trace).map (·.posted) = [] ∧
      after.unwatched = ((board.after [.perform 0 0 (.setPhase .answering),
        .perform 0 0 (.setSwitch .onHold true), .outside (.listenerDrop 1)]).handle
          event).unwatched := by
  intro board past event after
  obtain ⟨-, hposted, -, -, htold, hreceived, hbare⟩ :=
    notices_go_to_latest_listener board past event
  have hdue : (board.after past).dispatch? event = none := by
    decide
  rw [hdue] at hposted
  refine ⟨?_, ?_, hposted, hbare rfl⟩
  · rw [htold]
    decide
  · rw [hreceived 1 [] rfl (by decide), htold]
    decide

end CallLifecycle
