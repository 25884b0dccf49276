/-
Where notices go.

A notice goes to the one listener that follows the call, if that is still held by somebody
and, where it queues its notices, still read; and to nobody else.  Nobody takes the place of
a listener that is gone, and an older one does not get back what a newer one took.

`Switchboard.dispatch?` says of an event which notice goes where, by what the operation has to
tell and who follows the call that it finds.  `handle_delivers` finds that just this notice is
taken, and that no other queue is written.  Who follows a call is whoever was attached last and
not detached since, which is `listener_eq_follower`.
-/
import CallLifecycle.Proofs.Announcing
import CallLifecycle.Proofs.ChangeLog

namespace CallLifecycle

open Trace

/-- Who takes a notice, and which. -/
def Trace.Delivery.posted (d : Delivery) : Nat × Notice :=
  (d.listener, d.notice)

/-- Where a notice of a change goes: to the listener of the call, if it takes notices. -/
def Call.route? (call : Call) (around : Surroundings) (change : Change) : Option (Nat × Notice) :=
  match call.listener with
  | none => none
  | some l => if around.hears l then some (l, ⟨call.id, change⟩) else none

/-- The surroundings once a notice has gone where it goes. -/
def Surroundings.deliver (around : Surroundings) : Option (Nat × Notice) → Surroundings
  | none => around
  | some (l, notice) => around.modifyListener l (Listener.enqueue notice)

/-! ### One operation -/

theorem Surroundings.deliver_listeners {a b : Surroundings} (h : a.listeners = b.listeners)
    (due : Option (Nat × Notice)) : (a.deliver due).listeners = (b.deliver due).listeners := by
  cases due with
  | none => exact h
  | some posted => exact congrArg (·.modify posted.1 (Listener.enqueue posted.2)) h

/-- Taking a notice lets nobody hear who did not. -/
theorem Surroundings.hears_of_deliver {around : Surroundings} {due : Option (Nat × Notice)}
    {l : Nat} (h : (around.deliver due).hears l = true) : around.hears l = true := by
  cases due with
  | none => exact h
  | some posted => exact hears_of_modify (fun listener hheard => by simpa using hheard) h

/-- **A change is told to whom it goes**, and to nobody else. -/
theorem Progress.notify_delivers {p : Progress} (hquiet : deliveries p.trace = [])
    (change : Change) :
    let due := p.scene.call.route? p.scene.around change
    (deliveries (p.notify change).trace).map (·.posted) = due.toList ∧
      (p.notify change).scene.around = p.scene.around.deliver due := by
  intro due
  have hnobody : p.scene.audience? = none → due = none →
      (deliveries (p.notify change).trace).map (·.posted) = due.toList ∧
        (p.notify change).scene.around = p.scene.around.deliver due := by
    intro haudience hdue
    rw [notify, haudience, hdue, hquiet]
    exact ⟨rfl, rfl⟩
  cases hl : p.scene.call.listener with
  | none =>
      refine hnobody (by simp [Scene.audience?, hl]) ?_
      simp [due, Call.route?, hl]
  | some l =>
      have hdue : due =
          if p.scene.around.hears l then some (l, ⟨p.scene.call.id, change⟩) else none := by
        simp [due, Call.route?, hl]
      cases hlistener : p.scene.around.listeners[l]? with
      | none =>
          refine hnobody ?_ ?_
          · simp [Scene.audience?, hl, Surroundings.liveListener?, hlistener]
          · simp [hdue, Surroundings.hears, hlistener]
      | some listener =>
          have hears : p.scene.around.hears l = listener.hears := by
            simp [Surroundings.hears, hlistener]
          cases halive : listener.alive with
          | false =>
              refine hnobody ?_ ?_
              · simp [Scene.audience?, hl, Surroundings.liveListener?, hlistener, halive]
              · simp [hdue, hears, Listener.hears, halive]
          | true =>
              have haudience : p.scene.audience? = some (l, listener) := by
                simp [Scene.audience?, hl, Surroundings.liveListener?, hlistener,
                  Option.filter_some, halive]
              by_cases hclosed : listener.outlet = .closed
              · have hnone : due = none := by
                  simp [hdue, hears, Listener.hears, hclosed]
                rw [notify, haudience, hnone]
                simp only [if_pos hclosed]
                exact ⟨by simp [hquiet], rfl⟩
              · have hsome : due = some (l, ⟨p.scene.call.id, change⟩) := by
                  simp [hdue, hears, Listener.hears, halive, hclosed]
                rw [notify, haudience, hsome]
                simp only [if_neg hclosed]
                refine ⟨?_, rfl⟩
                rw [mapAround_trace, add_trace, deliveries_append, hquiet]
                rfl

/-- Where a notice goes is decided by who is there to take it. -/
theorem Call.route?_congr {a b : Call} {s t : Surroundings} (hlistener : a.listener = b.listener)
    (hid : a.id = b.id) (haround : s.listeners = t.listeners) (change : Change) :
    a.route? s change = b.route? t change := by
  unfold route?
  rw [hlistener, hid]
  cases b.listener with
  | none => rfl
  | some l =>
      simp only
      rw [Surroundings.hears_of_listeners haround]

namespace Scene.Announces

variable {scene : Scene} {op : Operation} {o : Outcome}

theorem listener_of_news? (h : scene.Announces op o) {change : Change}
    (hnews : op.news? scene.call o.reply = some change) :
    o.scene.call.listener = scene.call.listener := by
  rw [h.listener, Operation.follower?_of_news? hnews, Option.getD_none, ite_self]

/-- **An operation tells its news to whoever follows the call**, once its acceptances have run. -/
theorem delivers (h : scene.Announces op o) (hid : o.scene.call.id = scene.call.id) :
    let due := (op.news? scene.call o.reply).bind
      (scene.call.route? (scene.around.ran o.trace))
    (deliveries o.trace).map (·.posted) = due.toList ∧
      o.scene.around.listeners = ((scene.around.ran o.trace).deliver due).listeners := by
  obtain ⟨p, quiet, ho⟩ := h.told
  have htrace := congrArg Outcome.trace ho
  have hscene := congrArg Outcome.scene ho
  have hquiet : deliveries p.trace = [] := deliveries_of_tellings quiet.hushed
  cases hnews : op.news? scene.call o.reply with
  | none =>
      rw [hnews] at htrace hscene
      rw [htrace, hscene]
      exact ⟨congrArg (List.map _) hquiet, quiet.listeners⟩
  | some change =>
      rw [hnews] at htrace hscene
      have hcall : o.scene.call = p.scene.call := by
        rw [hscene]
        exact p.notify_call change
      have hlistener : p.scene.call.listener = scene.call.listener := by
        rw [← hcall, h.listener_of_news? hnews]
      have hran : acceptances o.trace = acceptances p.trace := by
        rw [htrace]
        exact p.acceptances_notify change
      have hlisteners : p.scene.around.listeners = (scene.around.ran o.trace).listeners := by
        rw [Surroundings.ran, hran]
        exact quiet.listeners
      have hroute := Call.route?_congr hlistener (by rw [← hcall, hid]) hlisteners change
      obtain ⟨htold, haround⟩ := Progress.notify_delivers hquiet change
      rw [hroute] at htold haround
      refine ⟨?_, ?_⟩
      · have htaken : deliveries o.trace = deliveries (p.notify change).trace :=
          congrArg deliveries htrace
        rw [htaken]
        exact htold
      · rw [hscene]
        show (p.notify change).scene.around.listeners = _
        rw [haround]
        exact Surroundings.deliver_listeners hlisteners _

end Scene.Announces

/-- What a refused operation assigns, if it does, is not where it found the call. -/
theorem Operation.assigned?_refused_ne (found : Call) (op : Operation) (failure : CallFailure) :
    op.assigned? found (.refused failure) ≠ some found.phase := by
  cases op with
  | answer a =>
      simp only [assigned?, Reply.isAborted, Bool.false_eq_true, ↓reduceIte]
      split
      · rename_i hready
        rw [hready]
        exact fun heq => a.target_ne (by simp) (by simp) (Option.some.inj heq)
      · split
        · rename_i hanticipatory
          rw [hanticipatory]
          simp
        · simp
  | engineReady =>
      simp only [assigned?, Reply.isAborted, Bool.false_eq_true, ↓reduceIte]
      split
      · rename_i hunanswered
        rcases hunanswered with h | h <;> rw [h] <;> simp
      · split
        · rename_i haccepting
          rw [haccepting]
          cases found.deferred with
          | none => simp
          | some a => exact fun heq => a.target_ne_accepting (Option.some.inj heq)
        · simp
  | _ => simp [assigned?]

namespace Episode

/-- What the listener of a call is told of an episode. -/
def news? (e : Episode) : Option Change :=
  e.op.news? e.scene.call e.outcome.reply

theorem announces (e : Episode) : e.scene.Announces e.op e.outcome :=
  e.scene.perform_announces e.thread e.op

/-- An operation that is refused and leaves the call where it was tells nobody. -/
theorem news?_of_refused {e : Episode} {failure : CallFailure}
    (hreply : e.outcome.reply = .refused failure)
    (hphase : e.outcome.scene.call.phase = e.scene.call.phase) : e.news? = none := by
  have hassigned : e.op.assigned? e.scene.call (.refused failure) = none := by
    cases ha : e.op.assigned? e.scene.call (.refused failure) with
    | none => rfl
    | some new =>
        have hnew := e.announces.phase
        rw [hreply, ha, Option.getD_some, hphase] at hnew
        rw [← hnew] at ha
        exact absurd ha (Operation.assigned?_refused_ne e.scene.call e.op failure)
  unfold news?
  rw [hreply]
  cases hop : e.op with
  | setSwitch switch on => rfl
  | _ =>
      rw [hop] at hassigned
      exact congrArg (Option.map Change.phase) hassigned

end Episode

/-! ### Events -/

namespace Switchboard

/-- The notice that is taken in the course of an event, and who takes it. -/
def dispatch? (board : Switchboard) (event : Event) : Option (Nat × Notice) := do
  let e ← board.episode? event
  let change ← e.news?
  e.scene.call.route? (board.around.applyAll (board.steps event)) change

theorem dispatch?_of_episode {board : Switchboard} {event : Event} {e : Episode}
    (he : board.episode? event = some e) :
    board.dispatch? event =
      e.news?.bind (e.scene.call.route? (board.around.applyAll (board.steps event))) := by
  rw [dispatch?, he]
  rfl

/-- **An event has one notice taken at most, by whoever follows the call**, and writes no other
queue. -/
theorem handle_delivers (board : Switchboard) (event : Event) :
    (deliveries (board.handle event).trace).map (·.posted) = (board.dispatch? event).toList ∧
      (board.handle event).board.around.listeners =
        ((board.around.applyAll (board.steps event)).deliver
          (board.dispatch? event)).listeners := by
  rcases board.handle_cases event with
    ⟨e, he, htrace, haround, hsteps⟩ | ⟨hhanded, htold, -, haround⟩
  · obtain ⟨-, -, hfound, -, -⟩ := call?_of_episode he
    have hid : e.outcome.scene.call.id = e.scene.call.id :=
      congrArg Fixed.id (e.scene.perform_fixed e.thread e.op)
    have hdue : board.dispatch? event =
        e.news?.bind (e.scene.call.route? (e.scene.around.ran e.outcome.trace)) := by
      rw [dispatch?_of_episode he, hsteps, hfound]
      rfl
    rw [htrace, haround, hdue, hsteps, ← hfound]
    exact e.announces.delivers hid
  · have hdue : board.dispatch? event = none := by
      cases he : board.episode? event with
      | none =>
          rw [dispatch?, he]
          rfl
      | some e =>
          have hnews : e.news? = none := by
            rw [Episode.news?, hhanded e he]
            rfl
          rw [dispatch?_of_episode he, hnews]
          rfl
    rw [hdue, htold, haround]
    exact ⟨rfl, rfl⟩

/-- **Whoever follows a call and takes notices is told all its news.** -/
theorem dispatch?_of_follows {board : Switchboard} {event : Event} {i l : Nat} {e : Episode}
    (he : board.episode? event = some e) (hi : event.subject? = some i)
    (hfollows : (board.handle event).board.follows i l = true) :
    board.dispatch? event = e.news?.map fun change => (l, ⟨e.scene.call.id, change⟩) := by
  rw [dispatch?_of_episode he]
  cases hnews : e.news? with
  | none => rfl
  | some change =>
      obtain ⟨call, hcall, hlistener, hears⟩ := exists_of_follows hfollows
      obtain rfl := Option.some.inj ((call?_of_subject he hi).2.symm.trans hcall)
      rw [e.announces.listener_of_news? hnews] at hlistener
      rw [Surroundings.hears_of_listeners (board.handle_delivers event).2] at hears
      rw [Option.bind_some, Call.route?, hlistener]
      exact if_pos (Surroundings.hears_of_deliver hears)

/-- A listener takes the notice that goes to it, if that goes to it. -/
theorem to_eq_dispatch (l : Nat) (board : Switchboard) (event : Event) :
    (Trace.to l (board.handle event).trace).map (·.notice) =
      ((board.dispatch? event).toList.filter (·.1 = l)).map (·.2) := by
  rw [← (board.handle_delivers event).1, List.filter_map, List.map_map]
  rfl

end Switchboard

/-! ### Who follows a call -/

/-- Whom an event is to make the listener of a call, if it is: nobody, maybe. -/
def Event.follower? (i : Nat) : Event → Option (Option Nat)
  | .perform j _ op => if j = i then op.follower? else none
  | _ => none

theorem Event.follower?_of_subject_ne {event : Event} {i : Nat} (h : event.subject? ≠ some i) :
    event.follower? i = none := by
  cases event with
  | perform j thread op => exact if_neg fun hji => h (by rw [hji]; rfl)
  | takeAndRun j thread | drop j | outside step => rfl

namespace Switchboard

/-- Who follows a call after some events, if somebody followed it before: whoever was attached to
it last, and nobody if the call was left without a listener since. -/
def follower (i : Nat) (board : Switchboard) (before : Option Nat) : List Event → Option Nat
  | [] => before
  | event :: rest =>
    let now :=
      if (board.handle event).response = .reply .done then (event.follower? i).getD before
      else before
    (board.handle event).board.follower i now rest

section Follower

variable {board : Switchboard} {event : Event} {i : Nat}

/-- What is not an episode attaches nobody. -/
theorem follower?_of_no_episode (he : board.episode? event = none)
    (hdone : (board.handle event).response = .reply .done) : event.follower? i = none := by
  cases event with
  | perform j thread op =>
      rcases board.perform_cases j thread op with ⟨e, hfound, -⟩ | ⟨-, response, hnothing, hnoReply⟩
      · rw [he] at hfound
        cases hfound
      · rw [handle, hnothing] at hdone
        exact absurd hdone (hnoReply _)
  | takeAndRun j thread | drop j | outside step => rfl

/-- **A call is followed by whoever is attached to it**, and by nobody once it is detached. -/
theorem listener_handle {call next : Call} (hcall : board.call? i = some call)
    (hnext : (board.handle event).board.call? i = some next) :
    next.listener =
      if (board.handle event).response = .reply .done then
        (event.follower? i).getD call.listener
      else call.listener := by
  rcases call?_handle_split hcall hnext with ⟨e, he, hi, rfl, rfl⟩ | ⟨rfl, helse⟩
  · rw [e.announces.listener]
    rcases episode?_cases he with ⟨j, rfl⟩ | ⟨j, rfl, hop⟩
    · obtain rfl : j = i := Option.some.inj hi
      have hresponse : (board.handle (.perform j e.thread e.op)).response =
          .reply e.outcome.reply := by
        rw [handle, perform_of_episode he]
      have hfollower : (Event.perform j e.thread e.op).follower? j = e.op.follower? :=
        if_pos rfl
      rw [hresponse, hfollower]
      simp only [Response.reply.injEq]
    · -- Handing out what is queued attaches nobody.
      rw [hop]
      simp [Operation.follower?, Event.follower?]
  · split
    · rename_i hdone
      have hnone : event.follower? i = none := by
        rcases helse with hother | he
        · exact Event.follower?_of_subject_ne hother
        · exact follower?_of_no_episode he hdone
      rw [hnone]
      rfl
    · rfl

end Follower

theorem listener_eq_follower {i : Nat} (events : List Event) :
    ∀ {board : Switchboard} {first last : Call}, board.call? i = some first →
      (board.after events).call? i = some last →
        last.listener = board.follower i first.listener events := by
  induction events with
  | nil =>
      intro board first last hfirst hlast
      obtain rfl := Option.some.inj (hfirst.symm.trans hlast)
      rfl
  | cons event rest ih =>
      intro board first last hfirst hlast
      cases hnext : (board.handle event).board.call? i with
      | none =>
          rw [after_cons, call?_after_of_none rest hnext] at hlast
          cases hlast
      | some next =>
          rw [follower, ← listener_handle hfirst hnext]
          exact ih hnext hlast

/-! ### All that a listener is told -/

/-- The notices that are taken in the course of some events, each with who takes it. -/
def dispatches (board : Switchboard) : List Event → List (Nat × Notice)
  | [] => []
  | event :: rest => (board.dispatch? event).toList ++ (board.handle event).board.dispatches rest

/-- **A listener takes the notices that go to it**, in order. -/
theorem told_eq_dispatches (l : Nat) (events : List Event) :
    ∀ board : Switchboard, (board.told l events).map (·.2) =
      ((board.dispatches events).filter (·.1 = l)).map (·.2) := by
  induction events with
  | nil => intro board; rfl
  | cons event rest ih =>
      intro board
      rw [told, dispatches, List.map_append, List.filter_append, List.map_append, ih,
        ← to_eq_dispatch, List.map_map]
      rfl

end Switchboard

end CallLifecycle
