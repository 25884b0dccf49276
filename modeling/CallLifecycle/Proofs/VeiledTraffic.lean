/-
What makes no difference on a switchboard.

An event is one operation at most, so what a veil hides makes no difference to an event if
it makes none to the operation: `Veil.aftermath_handle`.  What the event itself adds is
seen through any veil, but for two things.  A listener that nobody holds is not attached,
which is not asked where listeners are hidden, and what is taken from a queue is no more to
be seen than what was put there.
-/
import CallLifecycle.Proofs.Traffic
import CallLifecycle.Proofs.Veil

namespace CallLifecycle

open Trace

namespace Veil

variable {v : Veil} {thread : Thread} {op : Operation}

section Events

variable (v) (b : Switchboard)

/-- What can be seen of a switchboard. -/
def board (b : Switchboard) : Switchboard :=
  ⟨b.calls.map (Option.map v.call), v.around b.around⟩

/-- What can be seen of a response: of who listens, not even what is taken from a queue. -/
def response : Response → Response
  | .drained notices => if v.listeners then .noReceiver else .drained notices
  | r => r

/-- What can be seen of an aftermath. -/
def aftermath (after : Aftermath) : Aftermath :=
  ⟨v.board after.board, v.trace after.trace, v.response after.response⟩

/-- The thread that an operation on the call of a number seems to be called on. -/
def threadAt (i : Nat) (thread : Thread) : Thread :=
  match b.call? i with
  | none => if v.threads then 0 else thread
  | some call => v.thread call thread

/-- What an event seems to be. -/
def event : Event → Event
  | .perform i thread op => .perform i (v.threadAt b i thread) op
  | .takeAndRun i thread => .takeAndRun i (v.threadAt b i thread)
  | event => event

/-- Where threads are in view, events are what they seem. -/
theorem event_of_threads {v : Veil} (h : v.threads = false) (event : Event) :
    v.event b event = event := by
  have hthread : ∀ i thread, v.threadAt b i thread = thread := by
    intro i thread
    unfold threadAt Veil.thread
    rw [h]
    cases b.call? i <;> rfl
  cases event with
  | perform i thread op => exact congrArg (Event.perform i · op) (hthread i thread)
  | takeAndRun i thread => exact congrArg (Event.takeAndRun i ·) (hthread i thread)
  | drop i | outside step => rfl

@[simp] theorem call?_board (i : Nat) : (v.board b).call? i = (b.call? i).map v.call := by
  unfold Switchboard.call? board
  rw [List.getElem?_map]
  cases b.calls[i]? with
  | none => rfl
  | some call => rfl

theorem board_set (i : Nat) (call : Option Call) (around : Surroundings) :
    v.board ⟨b.calls.set i call, around⟩ =
      ⟨(v.board b).calls.set i (call.map v.call), v.around around⟩ := by
  unfold board
  rw [List.map_set]

theorem board_settle (i : Nat) (s : Scene) :
    v.board (b.settle i s) = (v.board b).settle i (v.scene s) := by
  unfold Switchboard.settle
  rw [board_set]
  rfl

theorem aftermath_settle (i : Nat) (o : Outcome) :
    v.aftermath ⟨b.settle i o.scene, o.trace, .reply o.reply⟩ =
      ⟨(v.board b).settle i (v.outcome o).scene, (v.outcome o).trace,
        .reply (v.outcome o).reply⟩ := by
  unfold aftermath
  rw [board_settle]
  rfl

/-- What a call reports of itself when it goes away is in view. -/
theorem trace_farewell (call : Call) : v.trace call.farewell = (v.call call).farewell := by
  show _ = call.farewell
  unfold Call.farewell
  rw [trace_append]
  congr 1
  · split
    · rfl
    · exact trace_happenings _ _ rfl
  · split
    · rfl
    · exact trace_happenings _ _ rfl

theorem aftermath_drop (i : Nat) : v.aftermath (b.drop i) = (v.board b).drop i := by
  unfold Switchboard.drop
  rw [call?_board]
  cases b.call? i with
  | none => rfl
  | some call =>
      show v.aftermath ⟨⟨_, _⟩, _, _⟩ = ⟨⟨_, _⟩, _, _⟩
      rw [aftermath, board_set, Scene.close_eq, Scene.close_eq, Progress.outcome_trace,
        Progress.outcome_trace, trace_noted _ _ rfl, trace_farewell]
      rfl

theorem aftermath_outside (step : OutsideStep) :
    v.aftermath (b.outside step) = (v.board b).outside step := by
  have hresponse : v.response (b.outside step).response = ((v.board b).outside step).response := by
    cases step with
    | receiverDrain i =>
        cases hv : v.listeners with
        | true =>
            have hgone : (v.board b).around.waiting? i = none := by
              simp [board, Veil.around, Surroundings.waiting?, hv]
            simp only [Switchboard.outside, hgone]
            cases b.around.waiting? i with
            | none => rfl
            | some notices => exact if_pos hv
        | false =>
            have hsame : (v.board b).around.waiting? i = b.around.waiting? i := by
              simp [board, Veil.around, Surroundings.waiting?, hv]
            simp only [Switchboard.outside, hsame]
            cases b.around.waiting? i with
            | none => rfl
            | some notices => exact if_neg (by simp [hv])
    | contactChange i new | recordChange i kind | listenerDrop i | receiverDrop i => rfl
  unfold aftermath
  rw [hresponse]
  show Aftermath.mk ⟨_, v.around (b.around.apply step)⟩ _ _ = _
  rw [around_apply]
  rfl

end Events

variable {b : Switchboard}

theorem aftermath_perform {i : Nat}
    (h : ∀ e, b.episode? (.perform i thread op) = some e → v.Passes e.scene.call e.thread e.op) :
    v.aftermath (b.perform i thread op) = (v.board b).perform i (v.threadAt b i thread) op := by
  unfold Switchboard.perform threadAt
  rw [call?_board]
  cases hcall : b.call? i with
  | none => rfl
  | some call =>
      cases hl : op.listener?.any fun l => (b.around.liveListener? l).isNone with
      | true =>
          -- Where it is hidden who listens, nobody can be found to be attached.
          have hgone : (op.listener?.any fun l =>
              ((v.board b).around.liveListener? l).isNone) = true := by
            obtain ⟨l, hop, hnone⟩ := (Option.any_eq_true _ _).mp hl
            refine (Option.any_eq_true _ _).mpr ⟨l, hop, ?_⟩
            cases hv : v.listeners with
            | true => simp [board, Veil.around, Surroundings.liveListener?, hv]
            | false => simpa [board, Veil.around, Surroundings.liveListener?, hv] using hnone
          simp only [Option.map_some, hgone]
          rfl
      | false =>
          have hdeed : b.deed? i (.perform i thread op) = some ⟨thread, op, b.around⟩ := by
            simp [Switchboard.deed?, hl]
          have hpasses : v.Passes call thread op := h _ (Switchboard.episode?_of_deed? hcall hdeed)
          have hfound : (op.listener?.any fun l =>
              ((v.board b).around.liveListener? l).isNone) = false := by
            cases hv : v.listeners with
            | true =>
                have hop : op.listener? = none := by
                  cases op with
                  | attach l => cases hpasses.listeners hv
                  | _ => rfl
                rw [hop]
                rfl
            | false => simpa [board, Veil.around, Surroundings.liveListener?, hv] using hl
          have hoc : v.outcome (Scene.perform ⟨call, b.around⟩ thread op) =
              Scene.perform ⟨v.call call, v.around b.around⟩ (v.thread call thread) op :=
            outcome_perform hpasses
          simp only [Option.map_some, hfound]
          show v.aftermath ⟨b.settle i _, _, .reply _⟩ = _
          rw [aftermath_settle, hoc]
          rfl

/-- **What is hidden makes no difference to an event**, as far as can be seen. -/
theorem aftermath_handle {event : Event}
    (h : ∀ e, b.episode? event = some e → v.Passes e.scene.call e.thread e.op) :
    v.aftermath (b.handle event) = (v.board b).handle (v.event b event) := by
  cases event with
  | perform i thread op => exact aftermath_perform h
  | takeAndRun i thread =>
      rw [Switchboard.episode?_takeAndRun] at h
      have hhanded := aftermath_perform h
      show v.aftermath (b.takeAndRun i thread) =
        (v.board b).takeAndRun i (v.threadAt b i thread)
      unfold Switchboard.takeAndRun
      rw [← hhanded]
      cases hresponse : (b.perform i thread .handOver).response with
      | reply reply =>
          cases reply with
          | handed queued =>
              cases queued with
              | none => simp [aftermath, response, hresponse]
              | some a =>
                  simp only [aftermath, response, hresponse, trace_append]
                  rw [board, around_applyAll]
                  rfl
          | done | refused e | aborted d => simp [aftermath, response, hresponse]
      | drained notices =>
          simp only [aftermath, response, hresponse]
          cases v.listeners <;> rfl
      | noCall | noListener | noReceiver | ranTaken failure => simp [aftermath, response, hresponse]
  | drop i => exact v.aftermath_drop b i
  | outside step => exact v.aftermath_outside b step

end Veil

end CallLifecycle
