/-
The notices of a call are a complete log of its changes.

Whoever has a snapshot of a call and then keeps following it need never look at the
call again: each notice says which switch or which phase changed and to what, and
the snapshot brought up to date by all of them is the snapshot as it would be taken
now.  That needs that nothing which a notice tells of changes without one, that none
is sent for a change that is refused, and that the two switches of video are told of
the right way round.

For one operation this is `Scene.Tells`.  A life among others is an induction over
the events of a switchboard: an event that is no episode of the call neither changes
the call nor sends a notice of it.

A queue is between the call and whoever reads it, and may be shared by several
calls.  `received_of_kept` says that the reading end takes just what was sent, in order,
whenever it is read.
-/
import CallLifecycle.Proofs.Telling
import CallLifecycle.Proofs.Traffic

namespace CallLifecycle

open Trace

/-- The notice that a listener takes. -/
def Trace.Delivery.notice (d : Delivery) : Notice :=
  ⟨d.seen.call.id, d.change⟩

/-- The notices that one listener takes. -/
def Trace.to (l : Nat) (trace : Trace) : List Delivery :=
  (deliveries trace).filter (·.listener = l)

/-- The face once the changes of some notices have come, in order. -/
def Face.reviseAll (face : Face) (notices : List Notice) : Face :=
  notices.foldl (fun face notice => face.revise notice.change) face

theorem Face.reviseAll_append (face : Face) (s t : List Notice) :
    face.reviseAll (s ++ t) = (face.reviseAll s).reviseAll t :=
  List.foldl_append

theorem Trace.deliveries_of_tellings {t : Trace} (h : tellings t = []) : deliveries t = [] := by
  rw [List.eq_nil_iff_forall_not_mem]
  intro d hd
  obtain ⟨happening, hmem, hshown⟩ := List.mem_filterMap.mp hd
  have htelling : happening.isTelling = true := by
    cases happening with
    | notified listener change seen => rfl
    | reported d | noted n | ran a | requested record kind => cases hshown
  exact not_mem_of_tellings h happening htelling hmem

/-! ### Who takes notices -/

/-- Whether a listener takes notices: somebody holds it and, if it queues them, reads them. -/
def Listener.hears (listener : Listener) : Bool :=
  listener.alive && listener.outlet ≠ .closed

namespace Listener

@[simp] theorem hears_drain (listener : Listener) : listener.drain.hears = listener.hears := by
  unfold drain
  split
  · rename_i h
    simp [hears, h]
  · rfl

@[simp] theorem hears_enqueue (notice : Notice) (listener : Listener) :
    (listener.enqueue notice).hears = listener.hears := by
  unfold enqueue
  split
  · rename_i h
    simp [hears, h]
  · rfl

theorem waiting?_drain (listener : Listener) :
    listener.drain.waiting? = listener.waiting?.map fun _ => [] := by
  cases h : listener.outlet <;> simp [drain, waiting?, h]

theorem waiting?_enqueue (notice : Notice) (listener : Listener) :
    (listener.enqueue notice).waiting? = listener.waiting?.map (· ++ [notice]) := by
  cases h : listener.outlet <;> simp [enqueue, waiting?, h]

/-- Whoever queued notices takes none once the reading end is gone. -/
theorem hears_close {listener : Listener} {waiting : List Notice}
    (h : listener.waiting? = some waiting) : listener.close.hears = false := by
  cases houtlet : listener.outlet with
  | queue _ => simp [close, hears, houtlet]
  | callback => simp [waiting?, houtlet] at h
  | closed => simp [waiting?, houtlet] at h

end Listener

namespace Surroundings

/-- Whether the listener of a number takes notices. -/
def hears (around : Surroundings) (l : Nat) : Bool :=
  around.listeners[l]?.any Listener.hears

/-- What leaves a queue through its reading end while steps from outside are taken. -/
def taken (l : Nat) (around : Surroundings) : List OutsideStep → List Notice
  | [] => []
  | step :: rest =>
    (if step = .receiverDrain l then (around.waiting? l).getD [] else []) ++
      (around.apply step).taken l rest

variable {around : Surroundings} {l : Nat}

/-- Whoever takes notices once a listener was changed took them before, if the change lets nobody
hear who did not. -/
theorem hears_of_modify {i : Nat} {f : Listener → Listener}
    (hf : ∀ listener : Listener, (f listener).hears = true → listener.hears = true)
    (h : (around.modifyListener i f).hears l = true) : around.hears l = true := by
  unfold hears modifyListener at *
  rw [List.getElem?_modify] at h
  cases hl : around.listeners[l]? with
  | none => rw [hl] at h; exact h
  | some listener =>
      rw [hl] at h
      by_cases hi : i = l
      · exact hf listener (by simpa [hi] using h)
      · simpa [hi] using h

/-- No step from outside lets anybody hear who did not. -/
theorem hears_of_apply {step : OutsideStep} (h : (around.apply step).hears l = true) :
    around.hears l = true := by
  cases step with
  | contactChange i new => exact h
  | recordChange i kind => exact h
  | listenerDrop i =>
      refine hears_of_modify (fun listener hdropped => ?_) h
      simp [Listener.hears, Listener.drop] at hdropped
  | receiverDrop i =>
      refine hears_of_modify (fun listener hclosed => ?_) h
      unfold Listener.close at hclosed
      split at hclosed
      · simp [Listener.hears] at hclosed
      · exact hclosed
  | receiverDrain i =>
      exact hears_of_modify (fun listener hdrained => by simpa using hdrained) h

theorem hears_of_applyAll {steps : List OutsideStep} :
    ∀ {around : Surroundings}, (around.applyAll steps).hears l = true →
      around.hears l = true := by
  induction steps with
  | nil => intro around h; exact h
  | cons step rest ih => intro around h; exact hears_of_apply (ih h)

/-! ### What waits in a queue -/

theorem waiting?_of_listeners {a b : Surroundings} (h : a.listeners = b.listeners) (l : Nat) :
    a.waiting? l = b.waiting? l := by
  unfold waiting?
  rw [h]

theorem hears_of_listeners {a b : Surroundings} (h : a.listeners = b.listeners) (l : Nat) :
    a.hears l = b.hears l := by
  unfold hears
  rw [h]

theorem waiting?_modifyListener_of_ne {i : Nat} (hi : i ≠ l) (f : Listener → Listener) :
    (around.modifyListener i f).waiting? l = around.waiting? l := by
  show (around.listeners.modify i f)[l]?.bind Listener.waiting? = around.waiting? l
  rw [List.getElem?_modify_ne _ _ hi]
  rfl

/-- Only a listener takes notices. -/
theorem exists_of_hears (h : around.hears l = true) :
    ∃ listener, around.listeners[l]? = some listener ∧ listener.hears = true := by
  unfold hears at h
  cases hl : around.listeners[l]? with
  | none => rw [hl] at h; cases h
  | some listener => rw [hl] at h; exact ⟨listener, rfl, h⟩

/-- A queue is there only where a listener is. -/
theorem exists_of_waiting? {waiting : List Notice} (h : around.waiting? l = some waiting) :
    ∃ listener, around.listeners[l]? = some listener ∧ listener.waiting? = some waiting :=
  Option.bind_eq_some_iff.mp h

theorem waiting?_modifyListener {listener : Listener} (h : around.listeners[l]? = some listener)
    (f : Listener → Listener) : (around.modifyListener l f).waiting? l = (f listener).waiting? := by
  show (around.listeners.modify l f)[l]?.bind Listener.waiting? = (f listener).waiting?
  rw [List.getElem?_modify_eq, h]
  rfl

/-- Whoever takes notices from a queue has not dropped its reading end. -/
theorem ne_receiverDrop_of_hears {step : OutsideStep} {waiting : List Notice}
    (hears : (around.apply step).hears l = true) (h : around.waiting? l = some waiting) :
    step ≠ .receiverDrop l := by
  rintro rfl
  obtain ⟨listener, hlistener, hwaiting⟩ := exists_of_waiting? h
  rw [apply, Surroundings.hears, modifyListener, List.getElem?_modify_eq, hlistener] at hears
  exact absurd hears (by simp [Listener.hears_close hwaiting])

/-- **What waits is taken or waits on**, in order, while a queue can be read. -/
theorem taken_append_of_apply {step : OutsideStep} {waiting : List Notice}
    (hkept : step ≠ .receiverDrop l) (h : around.waiting? l = some waiting) :
    ∃ left, (around.apply step).waiting? l = some left ∧
      waiting = around.taken l [step] ++ left := by
  obtain ⟨listener, hlistener, hwaiting⟩ := exists_of_waiting? h
  have hother : step ≠ .receiverDrain l → (around.apply step).waiting? l = some waiting →
      ∃ left, (around.apply step).waiting? l = some left ∧
        waiting = around.taken l [step] ++ left := by
    intro hne hsame
    refine ⟨waiting, hsame, ?_⟩
    rw [taken, if_neg hne]
    rfl
  cases step with
  | contactChange i new => exact hother (by simp) h
  | recordChange i kind => exact hother (by simp) h
  | listenerDrop i =>
      refine hother (by simp) ?_
      by_cases hi : i = l
      · rw [apply, hi, waiting?_modifyListener hlistener]
        exact hwaiting
      · rw [apply, waiting?_modifyListener_of_ne hi, h]
  | receiverDrop i =>
      refine hother (by simp) ?_
      have hi : i ≠ l := fun hi => hkept (by rw [hi])
      rw [apply, waiting?_modifyListener_of_ne hi, h]
  | receiverDrain i =>
      by_cases hi : i = l
      · refine ⟨[], ?_, ?_⟩
        · rw [apply, hi, waiting?_modifyListener hlistener, Listener.waiting?_drain, hwaiting]
          rfl
        · rw [hi, taken, if_pos rfl, h, taken, List.append_nil, List.append_nil]
          rfl
      · refine hother (by simp [hi]) ?_
        rw [apply, waiting?_modifyListener_of_ne hi, h]

theorem taken_append_of_applyAll (steps : List OutsideStep) :
    ∀ {around : Surroundings} {waiting : List Notice},
      .receiverDrop l ∉ steps → around.waiting? l = some waiting →
        ∃ left, (around.applyAll steps).waiting? l = some left ∧
          waiting = around.taken l steps ++ left := by
  induction steps with
  | nil => intro around waiting _ h; exact ⟨waiting, h, rfl⟩
  | cons step rest ih =>
      intro around waiting hkept h
      rw [List.mem_cons, not_or] at hkept
      obtain ⟨between, hbetween, hfirst⟩ := taken_append_of_apply (Ne.symm hkept.1) h
      obtain ⟨left, hleft, hrest⟩ := ih hkept.2 hbetween
      refine ⟨left, hleft, ?_⟩
      rw [hfirst, hrest, taken, taken, taken, List.append_nil, List.append_assoc]

theorem not_mem_receiverDrop_of_hears (steps : List OutsideStep) :
    ∀ {around : Surroundings} {waiting : List Notice},
      (around.applyAll steps).hears l = true → around.waiting? l = some waiting →
        .receiverDrop l ∉ steps := by
  induction steps with
  | nil => intro around waiting _ _; exact List.not_mem_nil
  | cons step rest ih =>
      intro around waiting hears h
      have hlater : ((around.apply step).applyAll rest).hears l = true := hears
      have hkept := ne_receiverDrop_of_hears (hears_of_applyAll hlater) h
      obtain ⟨between, hbetween, -⟩ := taken_append_of_apply hkept h
      rw [List.mem_cons, not_or]
      exact ⟨hkept.symm, ih hlater hbetween⟩

end Surroundings

/-! ### What one notice does -/

namespace Progress

variable {p : Progress} {change : Change} {l : Nat}

theorem hears_of_notify (h : (p.notify change).scene.around.hears l = true) :
    p.scene.around.hears l = true := by
  unfold notify at h
  split at h
  · exact h
  · split at h
    · exact h
    · exact Surroundings.hears_of_modify (fun listener hheard => by simpa using hheard) h

/-- A listener that takes notices takes one of every change that it is told of. -/
theorem notify_trace_of_hears (change : Change) (hlistener : p.scene.call.listener = some l)
    (hears : p.scene.around.hears l = true) :
    (p.notify change).trace = p.trace ++ [.notified l change p.scene] := by
  obtain ⟨listener, hfound, hheard⟩ := Surroundings.exists_of_hears hears
  simp only [Listener.hears, Bool.and_eq_true, decide_eq_true_eq] at hheard
  have haudience : p.scene.audience? = some (l, listener) := by
    simp [Scene.audience?, hlistener, Surroundings.liveListener?, hfound, Option.filter_some,
      hheard.1]
  rw [notify, haudience]
  simp only [if_neg hheard.2]
  rfl

/-- What a queue gets when a listener is told is the notice, if it goes to this queue, and it gets
it last. -/
theorem waiting?_notify (change : Change) {waiting : List Notice} (hquiet : deliveries p.trace = [])
    (h : p.scene.around.waiting? l = some waiting) :
    (p.notify change).scene.around.waiting? l =
      some (waiting ++ (Trace.to l (p.notify change).trace).map (·.notice)) := by
  rcases p.notify_cases change with hsame | hgone | ⟨i, htold⟩
  · rw [hsame, Trace.to, hquiet]
    simpa using h
  · rw [hgone, Trace.to, add_trace, deliveries_append, hquiet]
    simpa using h
  · have hto : Trace.to l (p.notify change).trace =
        [(⟨i, change, p.scene⟩ : Delivery)].filter (·.listener = l) := by
      rw [htold, Trace.to, mapAround_trace, add_trace, deliveries_append, hquiet]
      rfl
    rw [hto, htold]
    show (p.scene.around.modifyListener i _).waiting? l = _
    by_cases hi : i = l
    · obtain ⟨listener, hlistener, hwaiting⟩ := Surroundings.exists_of_waiting? h
      rw [hi, Surroundings.waiting?_modifyListener hlistener, Listener.waiting?_enqueue, hwaiting]
      simp [Delivery.notice]
    · rw [Surroundings.waiting?_modifyListener_of_ne hi, h]
      simp [hi]

end Progress

namespace Scene.Tells

variable {scene : Scene} {o : Outcome} {l : Nat}

/-- Every notice of an operation is of the call that it is performed on. -/
theorem seen_call (h : scene.Tells o) : ∀ d ∈ deliveries o.trace, d.seen.call = o.scene.call := by
  intro d hd
  cases h with
  | nobody quiet _ =>
      rw [Progress.outcome_trace, deliveries_of_tellings quiet.hushed] at hd
      cases hd
  | @last p change reply quiet _ =>
      rcases Progress.mem_deliveries_notify hd with hold | ⟨-, hseen⟩
      · rw [deliveries_of_tellings quiet.hushed] at hold
        cases hold
      · rw [hseen, Progress.outcome_scene, Progress.notify_call]

/-- **One operation is told of in full** to a listener that takes notices of it. -/
theorem face_eq (h : scene.Tells o) (hlistener : o.scene.call.listener = some l)
    (hears : o.scene.around.hears l = true) :
    scene.call.face.reviseAll ((Trace.to l o.trace).map (·.notice)) = o.scene.call.face := by
  cases h with
  | nobody quiet same =>
      rw [Progress.outcome_trace, Trace.to, deliveries_of_tellings quiet.hushed]
      exact same.symm
  | @last p change reply quiet news =>
      rw [Progress.outcome_scene] at hlistener hears
      rw [Progress.notify_call] at hlistener
      have htrace := Progress.notify_trace_of_hears change hlistener
        (Progress.hears_of_notify hears)
      rw [Progress.outcome_trace, Progress.outcome_scene, Progress.notify_call, htrace, Trace.to,
        deliveries_append, deliveries_of_tellings quiet.hushed, news]
      simp [deliveries, Delivery.notice, Face.reviseAll]

/-- Whoever takes notices after an operation took them once its acceptances had run. -/
theorem hears_ran (h : scene.Tells o) (hears : o.scene.around.hears l = true) :
    (scene.around.ran o.trace).hears l = true := by
  cases h with
  | @nobody p reply quiet _ =>
      rwa [Progress.outcome_scene, Surroundings.hears_of_listeners quiet.listeners] at hears
  | @last p change reply quiet _ =>
      have hbefore := Progress.hears_of_notify hears
      rw [Surroundings.hears_of_listeners quiet.listeners] at hbefore
      rw [Progress.outcome_trace, Surroundings.ran, Progress.acceptances_notify]
      exact hbefore

/-- **What one operation puts into a queue comes last**, after what its acceptances took out. -/
theorem queue_eq (h : scene.Tells o)
    (hkept : .receiverDrop l ∉ (acceptances o.trace).flatMap (·.effects))
    {waiting : List Notice} (hwaiting : scene.around.waiting? l = some waiting) :
    ∃ left, o.scene.around.waiting? l = some left ∧
      waiting ++ (Trace.to l o.trace).map (·.notice) =
        scene.around.taken l ((acceptances o.trace).flatMap (·.effects)) ++ left := by
  cases h with
  | @nobody p reply quiet _ =>
      obtain ⟨left, hleft, htaken⟩ := Surroundings.taken_append_of_applyAll _ hkept hwaiting
      refine ⟨left, ?_, ?_⟩
      · rw [Progress.outcome_scene, Surroundings.waiting?_of_listeners quiet.listeners]
        exact hleft
      · rw [Progress.outcome_trace, Trace.to, deliveries_of_tellings quiet.hushed]
        simpa using htaken
  | @last p change reply quiet _ =>
      rw [Progress.outcome_trace, Progress.acceptances_notify] at hkept ⊢
      obtain ⟨between, hbetween, htaken⟩ :=
        Surroundings.taken_append_of_applyAll _ hkept hwaiting
      rw [← Surroundings.waiting?_of_listeners quiet.listeners] at hbetween
      refine ⟨_, Progress.waiting?_notify change (deliveries_of_tellings quiet.hushed) hbetween, ?_⟩
      rw [htaken, List.append_assoc]

end Scene.Tells

/-! ### A run of events -/

namespace Switchboard

/-- Whether a call is there and followed by a listener that takes notices. -/
def follows (board : Switchboard) (i l : Nat) : Bool :=
  (board.call? i).any (·.listener = some l) && board.around.hears l

/-- The notices that a listener takes in the course of some events, each with the call that the
event was about. -/
def told (l : Nat) (board : Switchboard) : List Event → List (Option Nat × Notice)
  | [] => []
  | event :: rest =>
    (Trace.to l (board.handle event).trace).map (fun d => (event.subject?, d.notice)) ++
      (board.handle event).board.told l rest

/-- The notices of one call that a listener takes in the course of some events. -/
def heard (i l : Nat) (board : Switchboard) (events : List Event) : List Notice :=
  ((board.told l events).filter (·.1 = some i)).map (·.2)

/-- The notices of one call that a listener takes in the course of an event. -/
def news (i l : Nat) (board : Switchboard) (event : Event) : List Notice :=
  if event.subject? = some i then (Trace.to l (board.handle event).trace).map (·.notice) else []

/-- What the reading end of a queue takes in the course of some events, and once they are over. -/
def received (l : Nat) (board : Switchboard) : List Event → List Notice
  | [] => (board.around.waiting? l).getD []
  | event :: rest =>
    board.around.taken l (board.steps event) ++ (board.handle event).board.received l rest

section Events

variable {board : Switchboard} {event : Event} {i l : Nat}

theorem exists_of_follows (h : board.follows i l = true) :
    ∃ call, board.call? i = some call ∧ call.listener = some l ∧ board.around.hears l = true := by
  obtain ⟨hcall, hears⟩ := (Bool.and_eq_true _ _).mp h
  obtain ⟨call, hfound, hlistener⟩ := (Option.any_eq_true _ _).mp hcall
  exact ⟨call, hfound, of_decide_eq_true hlistener, hears⟩

theorem heard_cons (i l : Nat) (board : Switchboard) (event : Event) (rest : List Event) :
    board.heard i l (event :: rest) =
      board.news i l event ++ (board.handle event).board.heard i l rest := by
  rw [heard, told, List.filter_append, List.map_append, heard, news]
  congr 1
  by_cases hi : event.subject? = some i
  · rw [if_pos hi, List.filter_eq_self.mpr, List.map_map]
    · rfl
    · intro pair hpair
      obtain ⟨d, -, rfl⟩ := List.mem_map.mp hpair
      exact decide_eq_true hi
  · rw [if_neg hi, List.filter_eq_nil_iff.mpr, List.map_nil]
    intro pair hpair
    obtain ⟨d, -, rfl⟩ := List.mem_map.mp hpair
    simpa using hi

/-- What is about another call, or no episode, is no news of a call. -/
theorem news_of_else (h : event.subject? ≠ some i ∨ board.episode? event = none) :
    board.news i l event = [] := by
  rcases h with hi | he
  · exact if_neg hi
  · rw [news, Trace.to, (handle_of_no_episode he).2.1]
    exact ite_self _

/-- What an event is told of by is what its episode is told of by. -/
theorem to_of_episode {e : Episode} (h : board.episode? event = some e) (l : Nat) :
    Trace.to l (board.handle event).trace = Trace.to l e.outcome.trace := by
  obtain ⟨extra, -, htrace, -⟩ := handle_of_episode h
  rw [htrace, Trace.to, deliveries_append, deliveries_extraRuns, List.append_nil, Trace.to]

/-- One episode is told of in full, by notices of its call. -/
theorem face_of_episode {e : Episode} (h : board.episode? event = some e)
    (hlistener : e.outcome.scene.call.listener = some l)
    (hears : (board.handle event).board.around.hears l = true) :
    let notices := (Trace.to l (board.handle event).trace).map (·.notice)
    e.outcome.scene.call.id = e.scene.call.id ∧
      (∀ notice ∈ notices, notice.callId = e.scene.call.id) ∧
      e.scene.call.face.reviseAll notices = e.outcome.scene.call.face := by
  intro notices
  have htells : e.scene.Tells e.outcome := e.scene.perform_tells e.thread e.op
  have hid : e.outcome.scene.call.id = e.scene.call.id :=
    congrArg Fixed.id (e.scene.perform_fixed e.thread e.op)
  have hnotices : notices = (Trace.to l e.outcome.trace).map (·.notice) :=
    congrArg (List.map (·.notice)) (to_of_episode h l)
  obtain ⟨extra, -, -, hextra⟩ := handle_of_episode h
  rw [hextra] at hears
  rw [hnotices]
  refine ⟨hid, ?_, htells.face_eq hlistener (Surroundings.hears_of_applyAll hears)⟩
  intro notice hnotice
  obtain ⟨d, hd, rfl⟩ := List.mem_map.mp hnotice
  show d.seen.call.id = e.scene.call.id
  rw [htells.seen_call d (List.mem_filter.mp hd).1, hid]

/-- **One event is told of in full**, if the call is followed afterwards. -/
theorem face_of_handle {first last : Call} (hfirst : board.call? i = some first)
    (hlast : (board.handle event).board.call? i = some last) (hlistener : last.listener = some l)
    (hears : (board.handle event).board.around.hears l = true) :
    last.id = first.id ∧ (∀ notice ∈ board.news i l event, notice.callId = first.id) ∧
      first.face.reviseAll (board.news i l event) = last.face := by
  rcases call?_handle_split hfirst hlast with ⟨e, he, hi, rfl, rfl⟩ | ⟨rfl, helse⟩
  · rw [news, if_pos hi]
    exact face_of_episode he hlistener hears
  · rw [news_of_else helse]
    exact ⟨rfl, by simp, rfl⟩

/-- **What one event puts into a queue comes last**, after what it takes out. -/
theorem queue_of_handle {waiting : List Notice} (hkept : .receiverDrop l ∉ board.steps event)
    (hwaiting : board.around.waiting? l = some waiting) :
    ∃ left, (board.handle event).board.around.waiting? l = some left ∧
      waiting ++ (Trace.to l (board.handle event).trace).map (·.notice) =
        board.around.taken l (board.steps event) ++ left := by
  rcases board.handle_cases event with
    ⟨e, he, htrace, haround, hsteps⟩ | ⟨-, htold, -, haround⟩
  · obtain ⟨-, -, hfound, -, -⟩ := call?_of_episode he
    rw [hsteps] at hkept
    rw [haround, htrace, hsteps]
    rw [← hfound] at hwaiting ⊢
    exact (e.scene.perform_tells e.thread e.op).queue_eq hkept hwaiting
  · rw [haround]
    obtain ⟨left, hleft, htaken⟩ := Surroundings.taken_append_of_applyAll _ hkept hwaiting
    refine ⟨left, hleft, ?_⟩
    rw [Trace.to, htold]
    simpa using htaken

/-- Whoever takes notices from a queue after an event has not dropped its reading end meanwhile. -/
theorem kept_of_hears {waiting : List Notice}
    (hears : (board.handle event).board.around.hears l = true)
    (hwaiting : board.around.waiting? l = some waiting) :
    .receiverDrop l ∉ board.steps event := by
  refine Surroundings.not_mem_receiverDrop_of_hears _ ?_ hwaiting
  rcases board.handle_cases event with ⟨e, he, -, haround, hsteps⟩ | ⟨-, -, -, haround⟩
  · obtain ⟨-, -, hfound, -, -⟩ := call?_of_episode he
    rw [haround] at hears
    rw [hsteps, ← hfound]
    exact (e.scene.perform_tells e.thread e.op).hears_ran hears
  · rwa [haround] at hears

end Events

/-! ### The whole run -/

section Run

variable {i l : Nat}

/-- **The notices of a run say all that has become of a call** which is followed throughout. -/
theorem heard_of_run (events : List Event) :
    ∀ {board : Switchboard} {first : Call}, board.call? i = some first →
      (∀ after ∈ board.run events, after.board.follows i l = true) →
        ∃ last, (board.after events).call? i = some last ∧
          (∀ notice ∈ board.heard i l events, notice.callId = first.id) ∧
          first.face.reviseAll (board.heard i l events) = last.face := by
  induction events with
  | nil =>
      intro board first hfirst _
      exact ⟨first, hfirst, by simp [heard, told], rfl⟩
  | cons event rest ih =>
      intro board first hfirst hfollows
      obtain ⟨hnow, hlater⟩ := List.forall_mem_cons.mp hfollows
      obtain ⟨next, hnext, hlistener, hears⟩ := exists_of_follows hnow
      obtain ⟨hid, hmine, hface⟩ := face_of_handle hfirst hnext hlistener hears
      obtain ⟨last, hlast, hrest, hlog⟩ := ih hnext hlater
      refine ⟨last, hlast, ?_, ?_⟩
      · intro notice hnotice
        rw [heard_cons, List.mem_append] at hnotice
        rcases hnotice with hhere | hthere
        · exact hmine notice hhere
        · rw [hrest notice hthere, hid]
      · rw [heard_cons, Face.reviseAll_append, hface, hlog]

/-- **The reading end of a queue takes what was waiting and then all that is sent**, in order. -/
theorem received_of_kept (events : List Event) :
    ∀ {board : Switchboard} {waiting : List Notice},
      .receiverDrop l ∉ board.allSteps events → board.around.waiting? l = some waiting →
        board.received l events = waiting ++ (board.told l events).map (·.2) := by
  induction events with
  | nil =>
      intro board waiting _ hwaiting
      rw [received, hwaiting, told, List.map_nil, List.append_nil]
      rfl
  | cons event rest ih =>
      intro board waiting hkept hwaiting
      rw [allSteps, List.mem_append, not_or] at hkept
      obtain ⟨left, hleft, htaken⟩ := queue_of_handle hkept.1 hwaiting
      rw [received, ih hkept.2 hleft, ← List.append_assoc, ← htaken, told, List.map_append,
        List.map_map, List.append_assoc]
      rfl

theorem allKept_of_hears (events : List Event) :
    ∀ {board : Switchboard} {waiting : List Notice},
      (∀ after ∈ board.run events, after.board.around.hears l = true) →
        board.around.waiting? l = some waiting → .receiverDrop l ∉ board.allSteps events := by
  induction events with
  | nil => intro board waiting _ _; exact List.not_mem_nil
  | cons event rest ih =>
      intro board waiting hears hwaiting
      obtain ⟨hnow, hlater⟩ := List.forall_mem_cons.mp hears
      have hkept := kept_of_hears hnow hwaiting
      obtain ⟨left, hleft, -⟩ := queue_of_handle hkept hwaiting
      rw [allSteps, List.mem_append, not_or]
      exact ⟨hkept, ih hlater hleft⟩

theorem received_eq (events : List Event) {board : Switchboard} {waiting : List Notice}
    (hears : ∀ after ∈ board.run events, after.board.around.hears l = true)
    (hwaiting : board.around.waiting? l = some waiting) :
    board.received l events = waiting ++ (board.told l events).map (·.2) :=
  received_of_kept events (allKept_of_hears events hears hwaiting) hwaiting

end Run

end Switchboard

/-- **The notices of a call are a complete log of its changes.**  Take a call on a switchboard, at
any time, and let whatever follow that leaves a listener following the call.  The snapshot of the
call at the beginning, brought up to date by the notices of the call that the listener has taken
since, shows of the call what a snapshot shows now, and each of these notices names the call.  If
the listener queues its notices, then its reading end takes what was waiting, and then just what was
sent, in the order of sending. -/
theorem notices_log_every_change {board : Switchboard} {i l : Nat} {first : Call}
    {events : List Event} (hfirst : board.call? i = some first)
    (hfollows : ∀ after ∈ board.run events, after.board.follows i l = true) :
    ∃ last, (board.after events).call? i = some last ∧
      (first.observe board.around).face.reviseAll (board.heard i l events) =
        (last.observe (board.after events).around).face ∧
      (∀ notice ∈ board.heard i l events, notice.callId = first.id) ∧
      ∀ waiting, board.around.waiting? l = some waiting →
        board.received l events = waiting ++ (board.told l events).map (·.2) := by
  obtain ⟨last, hlast, hids, hlog⟩ := Switchboard.heard_of_run events hfirst hfollows
  refine ⟨last, hlast, hlog, hids, ?_⟩
  intro waiting hwaiting
  refine Switchboard.received_eq events (fun after hafter => ?_) hwaiting
  obtain ⟨-, -, -, hears⟩ := Switchboard.exists_of_follows (hfollows after hafter)
  exact hears

/-- Two calls share a queue that is read before the first of them is answered: all that was sent is
received, and the notices of the first call bring its face up to date. -/
theorem shared_queue_logs_call :
    let call : Call := { Call.incoming with listener := some 0 }
    let other : Call := { call with id := ⟨.replicate 32 1, List.length_replicate⟩ }
    let board : Switchboard := ⟨[some call, some other], ⟨[], [], [.channel]⟩⟩
    let events : List Event :=
      [.perform 0 0 (.setPhase .ringingReadyToAnswer), .perform 1 0 (.setSwitch .onHold true),
        .outside (.receiverDrain 0), .perform 0 0 (.setSwitch .localVideo true),
        .perform 0 0 (.answer { name := "a" })]
    let heard : List Notice :=
      [⟨call.id, .phase .ringingReadyToAnswer⟩, ⟨call.id, .localVideoMute false⟩,
        ⟨call.id, .phase .connected⟩]
    board.heard 0 0 events = heard ∧
      (∃ last, (board.after events).call? 0 = some last ∧
        call.face.reviseAll heard = last.face) ∧
      board.received 0 events = (board.told 0 events).map (·.2) := by
  intro call other board events heard
  have hheard : board.heard 0 0 events = heard := by
    decide
  have hfirst : board.call? 0 = some call := rfl
  have hfollows : ∀ after ∈ board.run events, after.board.follows 0 0 = true := by
    decide
  obtain ⟨last, hlast, hlog, -, hreceived⟩ := notices_log_every_change hfirst hfollows
  rw [hheard] at hlog
  exact ⟨hheard, ⟨last, hlast, hlog⟩, hreceived [] rfl⟩

end CallLifecycle
