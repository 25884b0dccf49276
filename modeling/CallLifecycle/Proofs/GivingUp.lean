/-
Giving up is all or nothing.

An operation that is given up at its first check has done nothing, but that `answer` may have run
its acceptance.  Under a strict reporter there is no other way of giving up.

An operation that is not given up comes to what it would under any reporter that never gives up.
In a run, then, what any reporters give up can be struck out, except for the acceptances that have
run, and the rest goes the same way: `Switchboard.weed` strikes it out.  Where every operation is
called on its call's own thread there is nothing to strike out, and any two reporters agree.
-/
import CallLifecycle.Proofs.Barring
import CallLifecycle.Proofs.Retelling
import CallLifecycle.Snapshot

namespace CallLifecycle

open Trace

/-! ### The rest under another reporter -/

namespace Episode

variable {e : Episode} {r : Reporter}

/-- **What is not given up comes to the same under a reporter that never gives up.** -/
theorem retold_of_not_isAborted (h : e.outcome.reply.isAborted = false)
    (hr : r.NeverGivesUp) : e.Retold r := by
  rw [outcome, Scene.isAborted_perform] at h
  exact Scene.perform_retold h (Call.cutsShort_eq_false (Or.inr hr) e.op)

/-- On the call's own thread, any two reporters come to the same. -/
theorem retold_of_owner (h : e.thread = e.scene.call.owner) (r : Reporter) : e.Retold r := by
  have hsame : e.thread = (e.scene.call.reportingTo r).owner := h
  have hr := Call.cutsShort_eq_false (Or.inl hsame) e.op
  exact Scene.perform_retold (Call.cutsShort_eq_false (Or.inl h) e.op) hr

/-- On the call's own thread, nothing is given up. -/
theorem not_isAborted_of_owner (h : e.thread = e.scene.call.owner) :
    e.outcome.reply.isAborted = false := by
  rw [outcome, Scene.isAborted_perform, Call.cutsShort_eq_false (Or.inl h)]

end Episode

/-! ### Runs -/

/-- Whether an event is an operation that is given up. -/
def Aftermath.isAborted (after : Aftermath) : Bool :=
  match after.response with
  | .reply reply => reply.isAborted
  | _ => false

namespace Switchboard

variable {board : Switchboard} {event : Event} {r : Reporter}

/-- What stays of an event if operations that are given up are struck out: of such an operation,
the acceptance that it ran.  `answer` was given it, and `engineReady` has taken it out of the
queue. -/
def lasting (board : Switchboard) (event : Event) : List Event :=
  let after := board.handle event
  if after.isAborted then
    match event, acceptances after.trace with
    | .perform i thread .engineReady, _ :: _ => [.takeAndRun i thread]
    | _, ran => (ran.flatMap (·.effects)).map .outside
  else [event]

/-- Some events, with the operations that are given up struck out. -/
def weed (board : Switchboard) : List Event → List Event
  | [] => []
  | event :: rest => board.lasting event ++ (board.handle event).board.weed rest

theorem isAborted_of_episode {e : Episode} (he : board.episode? event = some e) :
    (board.handle event).isAborted = e.outcome.reply.isAborted := by
  rcases episode?_cases he with ⟨i, rfl⟩ | ⟨i, rfl, hop⟩
  · rw [handle, perform_of_episode he]
    rfl
  · rw [episode?_takeAndRun] at he
    show (board.takeAndRun i e.thread).isAborted = _
    unfold takeAndRun
    rw [perform_of_episode he]
    cases e.outcome.reply with
    | handed queued => cases queued <;> rfl
    | done | refused failure | aborted d => rfl

theorem isAborted_of_no_episode (he : board.episode? event = none) :
    (board.handle event).isAborted = false := by
  have hperform : ∀ i thread op, board.episode? (.perform i thread op) = none →
      ∃ response, board.perform i thread op = ⟨board, [], response⟩ ∧
        ∀ reply, response ≠ .reply reply := by
    intro i thread op hnone
    rcases board.perform_cases i thread op with ⟨e, hfound, -⟩ | ⟨-, hnothing⟩
    · rw [hnone] at hfound
      cases hfound
    · exact hnothing
  cases event with
  | perform i thread op =>
      obtain ⟨response, hnothing, hnoReply⟩ := hperform i thread op he
      rw [handle, hnothing]
      cases response with
      | reply reply => exact absurd rfl (hnoReply reply)
      | noCall | noListener | noReceiver | ranTaken failure | drained notices => rfl
  | takeAndRun i thread =>
      rw [episode?_takeAndRun] at he
      obtain ⟨response, hnothing, hnoReply⟩ := hperform i thread .handOver he
      rw [handle, takeAndRun, hnothing]
      cases response with
      | reply reply => exact absurd rfl (hnoReply reply)
      | noCall | noListener | noReceiver | ranTaken failure | drained notices => rfl
  | drop i =>
      rw [handle, drop]
      cases board.call? i with
      | none => rfl
      | some call =>
          show (Scene.close ⟨call, board.around⟩).reply.isAborted = false
          rw [Scene.close_eq]
          rfl
  | outside step =>
      cases step with
      | receiverDrain l =>
          simp only [handle, outside]
          cases board.around.waiting? l <;> rfl
      | contactChange i new | recordChange i kind | listenerDrop i | receiverDrop i => rfl

/-- An operation that is given up leaves the switchboard as it leaves its scene. -/
theorem handle_of_isAborted {e : Episode} (he : board.episode? event = some e)
    (h : e.outcome.reply.isAborted = true) :
    ∃ i, event.subject? = some i ∧ board.handle event =
      ⟨board.settle i e.outcome.scene, e.outcome.trace, .reply e.outcome.reply⟩ := by
  rcases episode?_cases he with ⟨i, rfl⟩ | ⟨i, rfl, -⟩
  · exact ⟨i, rfl, perform_of_episode he⟩
  · rw [episode?_takeAndRun] at he
    refine ⟨i, rfl, ?_⟩
    rw [handle, takeAndRun, perform_of_episode he]
    cases hreply : e.outcome.reply with
    | aborted d => rfl
    | done | refused failure => rfl
    | handed queued =>
        rw [hreply] at h
        cases h

/-- What is given up at its first check leaves the calls as they were. -/
theorem board_of_givesUp {e : Episode} (he : board.episode? event = some e)
    (h : e.scene.GivesUp e.thread e.op e.outcome) :
    (board.handle event).board =
      { board with around := board.around.ran (board.handle event).trace } := by
  obtain ⟨operation, -, hreply, -⟩ := h.reply
  obtain ⟨i, hi, hhandle⟩ := handle_of_isAborted he (by rw [hreply]; rfl)
  obtain ⟨-, -, hfound, -⟩ := call?_of_episode he
  have hcalls : board.calls.set i (some e.scene.call) = board.calls :=
    congrArg Switchboard.calls (settle_of_episode he hi)
  rw [hhandle]
  show Switchboard.mk (board.calls.set i (some e.outcome.scene.call)) e.outcome.scene.around = _
  rw [h.call, h.around_ran, hcalls, hfound]

/-- What is stranded has taken out what was queued and run it, as anybody might have done. -/
theorem board_of_strands {i : Nat} {e : Episode}
    (he : board.episode? (.perform i e.thread .engineReady) = some e)
    (h : e.scene.Strands e.thread e.op e.outcome) :
    (board.handle (.takeAndRun i e.thread)).isAborted = false ∧
      (board.handle (.takeAndRun i e.thread)).board =
        (board.handle (.perform i e.thread .engineReady)).board := by
  obtain ⟨-, -, hfound, -⟩ := call?_of_episode he
  have hcall := (call?_of_subject he rfl).1
  let taken : Episode := ⟨e.scene, e.thread, .handOver⟩
  have htaken : board.episode? (.perform i e.thread .handOver) = some taken := by
    rw [episode?_of_call? hcall rfl, ← hfound]
    rfl
  have houtcome : taken.outcome =
      ((e.scene.checked e.thread "take_deferred_acceptance").mapCall
        ({ · with deferred := none })).outcome (.handed e.scene.call.deferred) := by
    unfold Episode.outcome
    rw [Scene.perform_handOver, if_neg (Bool.eq_false_iff.mp h.passed)]
  have hboard : (board.handle (.perform i e.thread .engineReady)).board =
      board.settle i ⟨{ e.scene.call with deferred := none },
        e.scene.around.applyAll (e.scene.call.deferred.toList.flatMap (·.effects))⟩ := by
    rw [handle, perform_of_episode he, ← h.call, ← h.around]
  rw [hboard, handle, takeAndRun, perform_of_episode htaken, houtcome]
  cases e.scene.call.deferred with
  | none => exact ⟨rfl, rfl⟩
  | some a =>
      refine ⟨rfl, ?_⟩
      rw [Option.toList_some, List.flatMap_singleton]
      rfl

theorem trace_of_isAborted {e : Episode} (he : board.episode? event = some e)
    (h : e.outcome.reply.isAborted = true) : (board.handle event).trace = e.outcome.trace := by
  obtain ⟨i, -, hhandle⟩ := handle_of_isAborted he h
  rw [hhandle]

/-- What is given up at its first check has run what it was given, if anything. -/
theorem lasting_of_givesUp {e : Episode} (he : board.episode? event = some e)
    (h : e.scene.GivesUp e.thread e.op e.outcome) :
    board.lasting event =
      ((acceptances (board.handle event).trace).flatMap (·.effects)).map .outside := by
  have haborted : e.outcome.reply.isAborted = true := by
    obtain ⟨operation, -, hreply, -⟩ := h.reply
    rw [hreply]
    rfl
  simp only [lasting]
  rw [isAborted_of_episode he, if_pos haborted, trace_of_isAborted he haborted, h.ran]
  split
  · rename_i hran
    rcases episode?_cases he with ⟨i, heq⟩ | ⟨i, heq, -⟩
    · injection heq with _ _ hop
      rw [← hop] at hran
      cases hran
    · cases heq
  · rfl

/-- What is stranded has run what was queued, or nothing was, and the calls are as they were. -/
theorem lasting_of_strands {i : Nat} {e : Episode}
    (he : board.episode? (.perform i e.thread .engineReady) = some e)
    (h : e.scene.Strands e.thread e.op e.outcome) :
    board.lasting (.perform i e.thread .engineReady) = [.takeAndRun i e.thread] ∨
      (board.handle (.perform i e.thread .engineReady)).board = board ∧
        board.lasting (.perform i e.thread .engineReady) = [] := by
  have haborted : e.outcome.reply.isAborted = true := by
    rw [h.reply]
    rfl
  simp only [lasting]
  rw [isAborted_of_episode he, if_pos haborted, trace_of_isAborted he haborted, h.ran]
  cases hdeferred : e.scene.call.deferred with
  | some a => exact Or.inl rfl
  | none =>
      refine Or.inr ⟨?_, rfl⟩
      have hcall : e.outcome.scene.call = e.scene.call := by
        rw [h.call, ← hdeferred]
      have haround : e.outcome.scene.around = e.scene.around := by
        rw [h.around, hdeferred]
        rfl
      rw [handle, perform_of_episode he]
      show Switchboard.mk (board.calls.set i (some e.outcome.scene.call)) _ = board
      rw [hcall, haround]
      exact settle_of_episode he rfl

theorem after_outside (steps : List OutsideStep) :
    ∀ board : Switchboard, board.after (steps.map .outside) =
      { board with around := board.around.applyAll steps } := by
  induction steps with
  | nil => intro board; rfl
  | cons step rest ih => intro board; exact ih _

/-- What is not given up comes to the same under a reporter that never gives up. -/
theorem handle_retold_of_not_isAborted (h : (board.handle event).isAborted = false)
    (hr : r.NeverGivesUp) :
    (board.reportingTo r).handle event = (board.handle event).retold r := by
  refine handle_retold fun e he => Episode.retold_of_not_isAborted ?_ hr
  rw [← isAborted_of_episode he, h]

/-- What lasts of an event does under a reporter that never gives up what the event does. -/
theorem after_lasting (hr : r.NeverGivesUp) (board : Switchboard) (event : Event) :
    (board.reportingTo r).after (board.lasting event) =
      (board.handle event).board.reportingTo r := by
  have hdone : ∀ {event : Event}, (board.handle event).isAborted = false →
      (board.reportingTo r).after [event] = (board.handle event).board.reportingTo r := by
    intro event h
    rw [after_cons, after_nil, handle_retold_of_not_isAborted h hr]
    rfl
  cases hcut : (board.handle event).isAborted with
  | false =>
      have hlasting : board.lasting event = [event] := by
        simp [lasting, hcut]
      rw [hlasting, hdone hcut]
  | true =>
      cases he : board.episode? event with
      | none =>
          rw [isAborted_of_no_episode he] at hcut
          cases hcut
      | some e =>
          have haborted : e.outcome.reply.isAborted = true := by
            rw [← isAborted_of_episode he, hcut]
          rcases Scene.givesUp_or_strands haborted with hgiven | hstrands
          · rw [lasting_of_givesUp he hgiven, after_outside, board_of_givesUp he hgiven]
            rfl
          · obtain ⟨i, rfl⟩ : ∃ i, event = .perform i e.thread .engineReady := by
              rcases episode?_cases he with ⟨i, rfl⟩ | ⟨i, -, hop⟩
              · exact ⟨i, by rw [hstrands.op]⟩
              · rw [hstrands.op] at hop
                cases hop
            obtain ⟨hlasts, hboard⟩ := board_of_strands he hstrands
            rcases lasting_of_strands he hstrands with hlasting | ⟨hnothing, hlasting⟩
            · rw [hlasting, hdone hlasts, hboard]
            · rw [hlasting, hnothing]
              rfl

/-- **A run under any reporters is a run under one that never gives up**, of what lasts. -/
theorem after_weed (hr : r.NeverGivesUp) (events : List Event) :
    ∀ board : Switchboard,
      (board.reportingTo r).after (board.weed events) = (board.after events).reportingTo r := by
  induction events with
  | nil => intro board; rfl
  | cons event rest ih =>
      intro board
      rw [weed, after_append, after_lasting hr, ih, after_cons]

/-- Whether an event is no operation on a foreign thread. -/
def atHome (board : Switchboard) : Event → Bool
  | .perform i thread _ | .takeAndRun i thread => (board.call? i).all (·.owner = thread)
  | _ => true

theorem owner_of_atHome (h : board.atHome event = true) {e : Episode}
    (he : board.episode? event = some e) : e.thread = e.scene.call.owner := by
  rcases episode?_cases he with ⟨i, rfl⟩ | ⟨i, rfl, -⟩
  · obtain ⟨hfound, -⟩ := call?_of_subject he rfl
    simpa [atHome, hfound, eq_comm] using h
  · obtain ⟨hfound, -⟩ := call?_of_subject he rfl
    simpa [atHome, hfound, eq_comm] using h

/-- No call changes its owner. -/
theorem atHome_handle {later : Event} (h : board.atHome later = true) (event : Event) :
    (board.handle event).board.atHome later = true := by
  have hall : ∀ i thread, (board.call? i).all (·.owner = thread) = true →
      ((board.handle event).board.call? i).all (·.owner = thread) = true := by
    intro i thread hown
    rw [Option.all_eq_true] at hown ⊢
    intro last hlast
    rcases call?_handle_cases hlast with hsame | ⟨e, -, -, hfound, rfl⟩
    · exact hown last hsame
    · have howner : e.outcome.scene.call.owner = e.scene.call.owner :=
        congrArg Fixed.owner (e.scene.perform_fixed e.thread e.op)
      rw [howner]
      exact hown _ hfound
  cases later with
  | perform i thread op => exact hall i thread h
  | takeAndRun i thread => exact hall i thread h
  | drop i | outside step => rfl

/-- **On the threads of the calls, nothing is given up, and any two reporters come to the same.** -/
theorem run_at_home (events : List Event) :
    ∀ {board : Switchboard}, (∀ event ∈ events, board.atHome event = true) →
      (∀ after ∈ board.run events, after.isAborted = false) ∧
      ∀ r, (board.reportingTo r).run events = (board.run events).map (Aftermath.retold r) := by
  induction events with
  | nil => intro board _; exact ⟨List.forall_mem_nil _, fun _ => rfl⟩
  | cons event rest ih =>
      intro board h
      obtain ⟨hnow, hlater⟩ := List.forall_mem_cons.mp h
      obtain ⟨hlasts, hruns⟩ := ih fun later hmem => atHome_handle (hlater later hmem) event
      have hlast : (board.handle event).isAborted = false := by
        cases he : board.episode? event with
        | none => exact isAborted_of_no_episode he
        | some e =>
            rw [isAborted_of_episode he]
            exact Episode.not_isAborted_of_owner (owner_of_atHome hnow he)
      refine ⟨List.forall_mem_cons.mpr ⟨hlast, hlasts⟩, fun r => ?_⟩
      have hstep : (board.reportingTo r).handle event = (board.handle event).retold r :=
        handle_retold fun e he => Episode.retold_of_owner (owner_of_atHome hnow he) r
      rw [run_cons, run_cons, List.map_cons, hstep, ← hruns r]
      rfl

end Switchboard

/-- **Giving up is all or nothing.**  Under a strict reporter an operation is given up exactly if it
is called off its call's thread and checks its context, which only `answer` and `engineReady` may
have no occasion to do.  An operation that is given up leaves the call, the records and the
listeners as they were, and has run nothing, but that `answer` has run its acceptance if the call
was ready to be answered.  One that is not given up comes to what it would under any reporter that
never gives up.  Going away is never given up, and what can be observed of a call is the same under
any reporter.

So in a run, on a switchboard where each call has its own reporter, what is given up can be struck
out and all else comes to the same where nobody gives up.  If every operation is called on its
call's own thread, nothing is given up and all reporters agree. -/
theorem giving_up_is_atomic {scene : Scene} (hstrict : scene.call.reporter = .logging true)
    (thread : Thread) (op : Operation) (board : Switchboard) (events : List Event) :
    let o := scene.perform thread op
    (o.reply.isAborted = true ↔
      thread ≠ scene.call.owner ∧ op.checksIn scene.call.phase = true) ∧
    (o.reply.isAborted = true → scene.GivesUp thread op o) ∧
    (o.reply.isAborted = false → ∀ r : Reporter, r.NeverGivesUp →
      (scene.reportingTo r).perform thread op = o.retold r) ∧
    (scene.close.reply = .done ∧ ∀ r, (scene.reportingTo r).observe = scene.observe) ∧
    (∀ r : Reporter, r.NeverGivesUp →
      let found := board.after events
      (board.reportingTo r).after (board.weed events) = found.reportingTo r ∧
      ∀ event, (found.handle event).isAborted = false →
        (found.reportingTo r).handle event = (found.handle event).retold r) ∧
    ((∀ event ∈ events, board.atHome event = true) →
      (∀ after ∈ board.run events, after.isAborted = false) ∧
      ∀ r, (board.reportingTo r).run events = (board.run events).map (Aftermath.retold r)) := by
  intro o
  have hbars : ∀ operation, scene.call.bars thread operation = decide (thread ≠ scene.call.owner) :=
    Call.bars_of_strict hstrict thread
  refine ⟨?_, fun hgiven => ?_, fun hlasts r hr => ?_, ⟨?_, fun _ => rfl⟩,
    fun r hr => ⟨Switchboard.after_weed hr events board, fun event hlasts =>
      Switchboard.handle_retold_of_not_isAborted hlasts hr⟩,
    Switchboard.run_at_home events⟩
  · rw [Scene.isAborted_perform, Call.cutsShort_of_strict hstrict, Bool.and_eq_true,
      decide_eq_true_eq]
  · -- No check is passed, so the first one is the end of it.
    rcases Scene.givesUp_or_strands hgiven with hgivesUp | hstrands
    · exact hgivesUp
    · have hpassed := hstrands.passed
      rw [Scene.isAborted_perform, Call.cutsShort_of_strict hstrict, Bool.and_eq_true] at hgiven
      rw [hbars, hgiven.1] at hpassed
      cases hpassed
  · exact Episode.retold_of_not_isAborted (e := ⟨scene, thread, op⟩) hlasts hr
  · rw [Scene.close_eq]
    rfl

/-- A ready call is answered on a foreign thread: the acceptance has run, and the call is as it
was.  The same on the call's own thread is the same for any reporter. -/
theorem answer_off_context_strands :
    let call : Call :=
      { Call.incoming with phase := .ringingReadyToAnswer, reporter := .logging true }
    let a : Acceptance := { name := "a", effects := [.recordChange 0 .incomingMissed] }
    let scene : Scene := ⟨call, ⟨[], [⟨.incomingIncomplete, false, 0⟩], []⟩⟩
    let board : Switchboard := ⟨[some call], scene.around⟩
    let o := scene.perform 7 (.answer a)
    o.reply = .aborted (.offContext "set_state" 0 7) ∧ o.scene.call = call ∧
      acceptances o.trace = [a] ∧
      (board.reportingTo .collecting).run [.perform 0 0 (.answer a)] =
        (board.run [.perform 0 0 (.answer a)]).map (Aftermath.retold .collecting) := by
  intro call a scene board o
  have hstrict : scene.call.reporter = .logging true := rfl
  obtain ⟨hiff, hgivesUp, -, -, -, hhome⟩ := giving_up_is_atomic hstrict 7 (.answer a) board
    [.perform 0 0 (.answer a)]
  have hgiven := hgivesUp (hiff.mpr (by decide))
  obtain ⟨operation, hcheck, hreply, -⟩ := hgiven.reply
  cases hcheck
  obtain ⟨-, hruns⟩ := hhome (by decide)
  exact ⟨hreply, hgiven.call, hgiven.ran, hruns .collecting⟩

end CallLifecycle
