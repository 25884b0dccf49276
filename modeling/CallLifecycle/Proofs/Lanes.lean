/-
What a call has to itself.

Calls share their surroundings, but hardly anything that happens to a call goes by them.  No
operation asks what surrounds the call before it decides what to do to it: how it ends, what it
reports, which acceptances it runs and what it makes of the call are the same anywhere, by
`Call.perform_anywhere`.  An event asks one thing besides, who is there to take notices, and the
records it never asks at all, except for the kind that one is of when it is to be promoted.

So two switchboards on which a call is the same, with the same listeners but for what is queued,
agree on what the next event makes of the call, and are so again afterwards.  Events about other
calls stay out of sight of it, as long as nobody drops a listener.  A call therefore goes its own
way through a run of events, its *lane*, which is the same whatever happens in between.
-/
import CallLifecycle.Proofs.Likeness
import CallLifecycle.Proofs.Promotion
import CallLifecycle.Proofs.Routing

namespace CallLifecycle

open Trace

/-! ### One operation -/

/-- What is the same of an operation under way, whatever surrounds the call. -/
structure Progress.Parallel (p q : Progress) : Prop where
  call : q.scene.call = p.scene.call
  defects : Trace.defects q.trace = Trace.defects p.trace
  acceptances : Trace.acceptances q.trace = Trace.acceptances p.trace

theorem Progress.Parallel.add {p q : Progress} (h : p.Parallel q) (t : Trace) :
    (p.add t).Parallel (q.add t) where
  call := h.call
  defects := by rw [add_trace, add_trace, defects_append, defects_append, h.defects]
  acceptances := by
    rw [add_trace, add_trace, acceptances_append, acceptances_append, h.acceptances]

/-- **No part of an operation goes by the surroundings**, as far as the call is concerned. -/
theorem likeness_parallel (thread : Thread) : Likeness thread Progress.Parallel where
  call h := ⟨_, h.call⟩
  mapCall {p q} h f _ := by
    refine ⟨?_, h.defects, h.acceptances⟩
    rw [Progress.mapCall_call, Progress.mapCall_call, h.call]
  note h _ _ := h.add _
  report h d := by
    rw [h.call]
    exact h.add _
  notify h change := by
    refine ⟨?_, ?_, ?_⟩
    · rw [Progress.notify_call, Progress.notify_call, h.call]
    · rw [Progress.defects_notify, Progress.defects_notify, h.defects]
    · rw [Progress.acceptances_notify, Progress.acceptances_notify, h.acceptances]
  promoteRecord h := by
    refine ⟨?_, ?_, ?_⟩
    · rw [Progress.promoteRecord_call, Progress.promoteRecord_call, h.call]
    · rw [Progress.defects_promoteRecord, Progress.defects_promoteRecord, h.defects]
    · rw [Progress.acceptances_promoteRecord, Progress.acceptances_promoteRecord, h.acceptances]
  runAcceptance h a := ⟨h.call, (h.add [.ran a]).defects, (h.add [.ran a]).acceptances⟩

/-- **What an operation makes of a call is the same anywhere.** -/
theorem Call.perform_anywhere (call : Call) (around around' : Surroundings) (thread : Thread)
    (op : Operation) :
    Likeness.Alike Progress.Parallel (Scene.perform ⟨call, around⟩ thread op)
      (Scene.perform ⟨call, around'⟩ thread op) := by
  have hstart : Progress.Parallel ⟨⟨call, around⟩, []⟩ ⟨⟨call, around'⟩, []⟩ := ⟨rfl, rfl, rfl⟩
  exact (likeness_parallel thread).perform hstart op fun _ _ => rfl

/-! ### Who is there to take notices -/

namespace Listener

/-- What is queued is nothing to a listener's being dropped. -/
theorem drain_drop (listener : Listener) : listener.drop.drain = listener.drain.drop := by
  cases h : listener.outlet <;> simp [drop, drain, h]

theorem drain_close (listener : Listener) : listener.close.drain = listener.drain.close := by
  cases h : listener.outlet <;> simp [close, drain, h]

theorem drain_drain (listener : Listener) : listener.drain.drain = listener.drain := by
  cases h : listener.outlet <;> simp [drain, h]

theorem drain_enqueue (notice : Notice) (listener : Listener) :
    (listener.enqueue notice).drain = listener.drain := by
  cases h : listener.outlet <;> simp [enqueue, drain, h]

@[simp] theorem alive_drain (listener : Listener) : listener.drain.alive = listener.alive := by
  unfold drain
  split <;> rfl

end Listener

/-- Whether a step from outside writes no record and lets nobody be told of less. -/
def OutsideStep.isCalm : OutsideStep → Bool
  | contactChange _ _ | receiverDrain _ => true
  | recordChange _ _ | listenerDrop _ | receiverDrop _ => false

namespace Surroundings

/-- The listeners, but for what waits in their queues. -/
def hearers (around : Surroundings) : List Listener :=
  around.listeners.map Listener.drain

variable {a b : Surroundings}

theorem hearers_getElem? (around : Surroundings) (l : Nat) :
    around.hearers[l]? = around.listeners[l]?.map Listener.drain :=
  List.getElem?_map

theorem hears_of_hearers (h : a.hearers = b.hearers) (l : Nat) : a.hears l = b.hears l := by
  have hany : ∀ around : Surroundings, around.hears l = around.hearers[l]?.any Listener.hears := by
    intro around
    rw [hearers_getElem?, Option.any_map]
    unfold hears
    congr 1
    funext listener
    exact (Listener.hears_drain listener).symm
  rw [hany, hany, h]

/-- Whether a listener is held by nobody does not depend on what is queued. -/
theorem liveListener?_of_hearers (h : a.hearers = b.hearers) (l : Nat) :
    (a.liveListener? l).isNone = (b.liveListener? l).isNone := by
  have hnone : ∀ around : Surroundings, (around.liveListener? l).isNone =
      (around.hearers[l]?.filter (·.alive)).isNone := by
    intro around
    rw [hearers_getElem?, liveListener?]
    cases around.listeners[l]? with
    | none => rfl
    | some listener => cases halive : listener.alive <;> simp [Option.filter, halive]
  rw [hnone, hnone, h]

theorem hearers_modify {f g : Listener → Listener}
    (hf : ∀ listener : Listener, (f listener).drain = g listener.drain) (around : Surroundings)
    (i : Nat) : (around.modifyListener i f).hearers = around.hearers.modify i g := by
  refine List.ext_getElem? fun l => ?_
  rw [hearers_getElem?, List.getElem?_modify, hearers_getElem?]
  show ((around.listeners.modify i f)[l]?).map _ = _
  rw [List.getElem?_modify]
  by_cases hl : i = l
  · cases around.listeners[l]? <;> simp [hl, hf]
  · simp [hl]

/-- Steps from outside do to the listeners what they do, whatever is queued. -/
theorem hearers_apply (h : a.hearers = b.hearers) (step : OutsideStep) :
    (a.apply step).hearers = (b.apply step).hearers := by
  cases step with
  | contactChange i new => exact h
  | recordChange i kind => exact h
  | listenerDrop i => rw [apply, apply, hearers_modify Listener.drain_drop, h,
      hearers_modify Listener.drain_drop]
  | receiverDrop i => rw [apply, apply, hearers_modify Listener.drain_close, h,
      hearers_modify Listener.drain_close]
  | receiverDrain i =>
      rw [apply, apply, hearers_modify fun _ => rfl, h, hearers_modify fun _ => rfl]

theorem hearers_applyAll (steps : List OutsideStep) :
    ∀ {a b : Surroundings}, a.hearers = b.hearers →
      (a.applyAll steps).hearers = (b.applyAll steps).hearers := by
  induction steps with
  | nil => intro a b h; exact h
  | cons step rest ih => intro a b h; exact ih (hearers_apply h step)

theorem hearers_applyAll_of_calm (steps : List OutsideStep) :
    ∀ {around : Surroundings}, (∀ step ∈ steps, step.isCalm = true) →
      (around.applyAll steps).hearers = around.hearers := by
  induction steps with
  | nil => intro around _; rfl
  | cons step rest ih =>
      intro around hcalm
      obtain ⟨hnow, hlater⟩ := List.forall_mem_cons.mp hcalm
      have hstep : (around.apply step).hearers = around.hearers := by
        cases step with
        | contactChange i new => rfl
        | receiverDrain i =>
            rw [apply, hearers_modify (g := id) Listener.drain_drain, List.modify_id]
        | _ => cases hnow
      exact (ih hlater).trans hstep

/-- A notice that is taken waits in a queue at most. -/
theorem hearers_deliver (around : Surroundings) (due : Option (Nat × Notice)) :
    (around.deliver due).hearers = around.hearers := by
  cases due with
  | none => rfl
  | some posted =>
      show (around.modifyListener posted.1 _).hearers = around.hearers
      rw [hearers_modify (g := id) (Listener.drain_enqueue posted.2), List.modify_id]

theorem hearers_of_listeners (h : a.listeners = b.listeners) : a.hearers = b.hearers :=
  congrArg (List.map Listener.drain) h

end Surroundings

/-! ### One event -/

/-- Whether the call of a number is the same on two switchboards, and who is there to take notices
is, too. -/
structure Switchboard.Alongside (i : Nat) (b b' : Switchboard) : Prop where
  call : b'.call? i = b.call? i
  hearers : b'.around.hearers = b.around.hearers

/-- Whether two events come to the same for the call of a number. -/
structure Aftermath.Agrees (i : Nat) (x y : Aftermath) : Prop where
  response : y.response = x.response
  defects : Trace.defects y.trace = Trace.defects x.trace
  acceptances : Trace.acceptances y.trace = Trace.acceptances x.trace
  call : y.board.call? i = x.board.call? i

/-- An episode of the same call, among other surroundings. -/
def Episode.among (around : Surroundings) (e : Episode) : Episode :=
  { e with scene := ⟨e.scene.call, around⟩ }

theorem Episode.outcome_among (e : Episode) (around : Surroundings) :
    Likeness.Alike Progress.Parallel e.outcome (e.among around).outcome :=
  e.scene.call.perform_anywhere e.scene.around around e.thread e.op

namespace Switchboard

variable {i : Nat} {b b' : Switchboard} {event : Event}

theorem Alongside.held (h : Alongside i b b') (op : Operation) :
    (op.listener?.any fun l => (b'.around.liveListener? l).isNone) =
      op.listener?.any fun l => (b.around.liveListener? l).isNone := by
  congr 1
  funext l
  exact Surroundings.liveListener?_of_hearers h.hearers l

theorem Alongside.perform (h : Alongside i b b') (thread : Thread) (op : Operation) :
    Aftermath.Agrees i (b.perform i thread op) (b'.perform i thread op) := by
  unfold Switchboard.perform
  rw [h.call]
  cases hcall : b.call? i with
  | none => exact ⟨rfl, rfl, rfl, h.call⟩
  | some call =>
      have hcall' : b'.call? i = some call := h.call.trans hcall
      simp only [h.held op]
      cases op.listener?.any fun l => (b.around.liveListener? l).isNone with
      | true => exact ⟨rfl, rfl, rfl, h.call⟩
      | false =>
          obtain ⟨hreply, hleft, hdefects, hran⟩ :=
            call.perform_anywhere b.around b'.around thread op
          refine ⟨congrArg Response.reply hreply, hdefects, hran, ?_⟩
          exact (call?_set hcall' i _ _).trans
            ((congrArg (fun c => if i = i then some c else _) hleft).trans
              (call?_set hcall i _ _).symm)

theorem Alongside.takeAndRun (h : Alongside i b b') (thread : Thread) :
    Aftermath.Agrees i (b.takeAndRun i thread) (b'.takeAndRun i thread) := by
  have hhanded := h.perform thread .handOver
  unfold Switchboard.takeAndRun
  revert hhanded
  generalize b.perform i thread .handOver = x
  generalize b'.perform i thread .handOver = y
  obtain ⟨left, trace, response⟩ := x
  obtain ⟨left', trace', response'⟩ := y
  rintro ⟨hresponse, hdefects, hran, hcall⟩
  obtain rfl : response' = response := hresponse
  cases response' with
  | reply reply =>
      cases reply with
      | handed queued =>
          cases queued with
          | none => exact ⟨rfl, hdefects, hran, hcall⟩
          | some a =>
              refine ⟨rfl, ?_, ?_, hcall⟩
              · exact (defects_append _ _).trans
                  ((congrArg (· ++ _) hdefects).trans (defects_append _ _).symm)
              · exact (acceptances_append _ _).trans
                  ((congrArg (· ++ _) hran).trans (acceptances_append _ _).symm)
      | done | refused e | aborted d => exact ⟨rfl, hdefects, hran, hcall⟩
  | noCall | noListener | noReceiver | ranTaken failure | drained notices =>
      exact ⟨rfl, hdefects, hran, hcall⟩

theorem Alongside.drop (h : Alongside i b b') : Aftermath.Agrees i (b.drop i) (b'.drop i) := by
  have hgone : (b'.drop i).board.call? i = (b.drop i).board.call? i := by
    rw [call?_drop_self, call?_drop_self]
  revert hgone
  unfold Switchboard.drop
  rw [h.call]
  cases b.call? i with
  | none => exact fun hgone => ⟨rfl, rfl, rfl, hgone⟩
  | some call =>
      simp only [Scene.close_eq]
      exact fun hgone => ⟨rfl, rfl, rfl, hgone⟩

/-- **What an event comes to for its call does not depend on other calls.** -/
theorem Alongside.agrees (h : Alongside i b b') (hi : event.subject? = some i) :
    Aftermath.Agrees i (b.handle event) (b'.handle event) := by
  cases event with
  | perform j thread op =>
      obtain rfl : j = i := Option.some.inj hi
      exact h.perform thread op
  | takeAndRun j thread =>
      obtain rfl : j = i := Option.some.inj hi
      exact h.takeAndRun thread
  | drop j =>
      obtain rfl : j = i := Option.some.inj hi
      exact h.drop
  | outside step => cases hi

theorem Alongside.steps (h : Alongside i b b') (hi : event.subject? = some i) :
    b'.steps event = b.steps event := by
  unfold Switchboard.steps
  rw [(h.agrees hi).acceptances]

/-- An event leaves the listeners as its steps do, but for what is queued. -/
theorem hearers_handle (board : Switchboard) (event : Event) :
    (board.handle event).board.around.hearers =
      (board.around.applyAll (board.steps event)).hearers := by
  rw [Surroundings.hearers_of_listeners (board.handle_delivers event).2,
    Surroundings.hearers_deliver]

/-- Where a call was the same, it stays the same. -/
theorem Alongside.handle (h : Alongside i b b') (hi : event.subject? = some i) :
    Alongside i (b.handle event).board (b'.handle event).board := by
  refine ⟨(h.agrees hi).call, ?_⟩
  rw [hearers_handle, hearers_handle, h.steps hi]
  exact Surroundings.hearers_applyAll _ h.hearers

/-- What happens to other calls stays out of sight. -/
theorem alongside_of_other (hi : event.subject? ≠ some i)
    (hcalm : ∀ step ∈ b.steps event, step.isCalm = true) :
    Alongside i b (b.handle event).board := by
  refine ⟨?_, ?_⟩
  · cases hcall : b.call? i with
    | none => exact call?_handle_of_none hcall event
    | some call =>
        have hdrop : event ≠ .drop i := by
          rintro rfl
          exact hi rfl
        have hdeed : b.deed? i event = none := by
          cases hd : b.deed? i event with
          | none => rfl
          | some deed => exact absurd (subject?_of_deed? hd) hi
        rw [call?_handle hcall hdrop, hdeed]
  · rw [hearers_handle, Surroundings.hearers_applyAll_of_calm _ hcalm]

theorem Alongside.trans {b'' : Switchboard} (h : Alongside i b b') (h' : Alongside i b' b'') :
    Alongside i b b'' :=
  ⟨h'.call.trans h.call, h'.hearers.trans h.hearers⟩

theorem Alongside.symm (h : Alongside i b b') : Alongside i b' b :=
  ⟨h.call.symm, h.hearers.symm⟩

/-- An event is an episode of the same call on both sides, or on neither. -/
theorem Alongside.episode? (h : Alongside i b b') (hi : event.subject? = some i) :
    b'.episode? event = (b.episode? event).map (Episode.among b'.around) := by
  have hdeed : b'.deed? i event =
      (b.deed? i event).map fun deed => { deed with around := b'.around } := by
    cases event with
    | perform j thread op =>
        simp only [deed?, h.held op]
        split <;> rfl
    | takeAndRun j thread =>
        simp only [deed?]
        split <;> rfl
    | drop j | outside step => rfl
  unfold Switchboard.episode?
  rw [hi]
  simp only [Option.bind_eq_bind, Option.bind_some]
  rw [h.call, hdeed]
  cases b.call? i with
  | none => rfl
  | some call => cases b.deed? i event <;> rfl

/-! ### What comes of an event -/

/-- What an event comes to, as far as its call goes. -/
structure Account where
  response : Response
  defects : List Defect
  acceptances : List Acceptance
  /-- The notice that is taken, and who takes it. -/
  posted : List (Nat × Notice)
  /-- The record that is to be promoted. -/
  due : Option Nat
  /-- The call as the event leaves it. -/
  call : Option Call

/-- What an event comes to, as far as its call goes. -/
def account (board : Switchboard) (event : Event) : Account where
  response := (board.handle event).response
  defects := Trace.defects (board.handle event).trace
  acceptances := Trace.acceptances (board.handle event).trace
  posted := (deliveries (board.handle event).trace).map (·.posted)
  due := board.due? event
  call := event.subject?.bind (board.handle event).board.call?

theorem Alongside.due? (h : Alongside i b b') (hi : event.subject? = some i) :
    b'.due? event = b.due? event := by
  unfold Switchboard.due?
  rw [h.episode? hi]
  cases b.episode? event with
  | none => rfl
  | some e =>
      obtain ⟨hreply, hcall, -, -⟩ := e.outcome_among b'.around
      show (e.among b'.around).outcome.due? e.scene.call.phase e.op = _
      have hleft : (e.among b'.around).outcome.scene.call = e.outcome.scene.call := hcall
      unfold Outcome.due?
      rw [hreply, hleft]
      rfl

theorem Alongside.dispatch? (h : Alongside i b b') (hi : event.subject? = some i) :
    b'.dispatch? event = b.dispatch? event := by
  have hroute : ∀ (call : Call) change,
      call.route? (b'.around.applyAll (b'.steps event)) change =
        call.route? (b.around.applyAll (b.steps event)) change := by
    intro call change
    unfold Call.route?
    cases call.listener with
    | none => rfl
    | some l =>
        rw [h.steps hi]
        simp only
        rw [Surroundings.hears_of_hearers (Surroundings.hearers_applyAll _ h.hearers)]
  cases he : b.episode? event with
  | none =>
      have he' : b'.episode? event = none := by rw [h.episode? hi, he]; rfl
      rw [Switchboard.dispatch?, Switchboard.dispatch?, he, he']
      rfl
  | some e =>
      have he' : b'.episode? event = some (e.among b'.around) := by rw [h.episode? hi, he]; rfl
      obtain ⟨hreply, -⟩ := e.outcome_among b'.around
      have hnews : (e.among b'.around).news? = e.news? := by
        unfold Episode.news?
        rw [hreply]
        rfl
      rw [dispatch?_of_episode he, dispatch?_of_episode he', hnews]
      exact congrArg e.news?.bind (funext (hroute e.scene.call))

/-- **A call makes the same of an event wherever it is**, while the same listeners are there. -/
theorem Alongside.account (h : Alongside i b b') (hi : event.subject? = some i) :
    b'.account event = b.account event := by
  obtain ⟨hresponse, hdefects, hran, hcall⟩ := h.agrees hi
  unfold Switchboard.account
  rw [hresponse, hdefects, hran, (b'.handle_delivers event).1, (b.handle_delivers event).1,
    h.dispatch? hi, h.due? hi, hi]
  exact congrArg _ hcall

/-! ### Lanes -/

/-- What some events come to, one after the other, each with the call that it is about. -/
def log {α : Type} (f : Switchboard → Event → α) (board : Switchboard) :
    List Event → List (Option Nat × α)
  | [] => []
  | event :: rest => (event.subject?, f board event) :: (board.handle event).board.log f rest

/-- What the events about one call come to. -/
def lane {α : Type} (f : Switchboard → Event → α) (i : Nat) (board : Switchboard)
    (events : List Event) : List α :=
  ((board.log f events).filter (·.1 = some i)).map (·.2)

section Lane

variable {α : Type} (f : Switchboard → Event → α)

theorem lane_cons_of_subject (hi : event.subject? = some i) (rest : List Event) :
    b.lane f i (event :: rest) = f b event :: (b.handle event).board.lane f i rest := by
  unfold lane
  rw [log, List.filter_cons_of_pos (by simpa using hi), List.map_cons]

theorem lane_cons_of_other (hi : event.subject? ≠ some i) (rest : List Event) :
    b.lane f i (event :: rest) = (b.handle event).board.lane f i rest := by
  unfold lane
  rw [log, List.filter_cons_of_neg (by simpa using hi)]

end Lane

/-- **A call's lane is what its own events come to**, whatever happens in between. -/
theorem lane_of_filter (events : List Event) :
    ∀ {b b' : Switchboard}, Alongside i b b' →
      (∀ step ∈ b.allSteps events, step.isCalm = true) →
        b.lane account i events = b'.lane account i (events.filter (·.subject? = some i)) := by
  induction events with
  | nil => intro b b' _ _; rfl
  | cons event rest ih =>
      intro b b' h hcalm
      obtain ⟨hnow, hlater⟩ := List.forall_mem_append.mp hcalm
      by_cases hi : event.subject? = some i
      · rw [lane_cons_of_subject _ hi, List.filter_cons_of_pos (by simpa using hi),
          lane_cons_of_subject _ hi, h.account hi, ih (h.handle hi) hlater]
      · have hother := alongside_of_other hi hnow
        rw [lane_cons_of_other _ hi, List.filter_cons_of_neg (by simpa using hi)]
        exact ih (hother.symm.trans h) hlater

end Switchboard

end CallLifecycle
