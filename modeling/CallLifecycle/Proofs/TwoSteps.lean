/-
Answering early in one step or in two.

A call may be moved to `accepting` and then be given the acceptance that is to wait, or both may
be done at once.  The two are written apart: at once, the listener is told when the acceptance is
queued, and one after the other, before.  What is compared here is everything that happens, and
`Progress.enqueue_notify` finds where the difference is.  Queueing and telling write different
things and may change places, but for the call that the listener can read meanwhile, which has the
acceptance queued or not yet.

That a queued acceptance is replaced and not thrown away, in either form, is because a call that
is put into `accepting` keeps what it has queued.
-/
import CallLifecycle.Proofs.Ledger
import CallLifecycle.Proofs.Rejecting
import CallLifecycle.Proofs.Routing
import CallLifecycle.Proofs.Waiting

namespace CallLifecycle

open Trace

/-- What comes of another operation after this one, if this one was done. -/
def Outcome.andThen (o : Outcome) (thread : Thread) (op : Operation) : Outcome :=
  if o.reply = .done then
    let next := o.scene.perform thread op
    ⟨next.scene, o.trace ++ next.trace, next.reply⟩
  else o

theorem Outcome.andThen_of_done {o : Outcome} (h : o.reply = .done) (thread : Thread)
    (op : Operation) :
    o.andThen thread op =
      ⟨(o.scene.perform thread op).scene, o.trace ++ (o.scene.perform thread op).trace,
        (o.scene.perform thread op).reply⟩ :=
  if_pos h

theorem Outcome.andThen_of_not_done {o : Outcome} (h : o.reply ≠ .done) (thread : Thread)
    (op : Operation) : o.andThen thread op = o :=
  if_neg h

/-! ### What a listener reads meanwhile -/

section Holding

variable (a : Acceptance)

/-- The scene as it is with an acceptance queued. -/
def Scene.holding (scene : Scene) : Scene :=
  { scene with call := { scene.call with deferred := some a } }

/-- The notice as it is taken of a call with an acceptance queued. -/
def Trace.Delivery.holding (d : Delivery) : Delivery :=
  { d with seen := d.seen.holding a }

/-- The same happening, of a call with an acceptance queued. -/
def Happening.holding : Happening → Happening
  | notified listener change seen => notified listener change (seen.holding a)
  | happening => happening

namespace Trace

variable (t : Trace)

@[simp] theorem deliveries_map_holding :
    deliveries (t.map (Happening.holding a)) = (deliveries t).map (Delivery.holding a) := by
  unfold deliveries
  rw [List.filterMap_map, List.map_filterMap]
  congr 1
  funext happening
  cases happening <;> rfl

@[simp] theorem defects_map_holding : defects (t.map (Happening.holding a)) = defects t := by
  unfold defects
  rw [List.filterMap_map]
  congr 1
  funext happening
  cases happening <;> rfl

@[simp] theorem requests_map_holding : requests (t.map (Happening.holding a)) = requests t := by
  unfold requests
  rw [List.filterMap_map]
  congr 1
  funext happening
  cases happening <;> rfl

/-- Only notices show the call. -/
theorem map_holding_of_tellings {t : Trace} (h : tellings t = []) :
    t.map (Happening.holding a) = t := by
  have hsame : ∀ happening ∈ t, happening.holding a = happening := by
    intro happening hmem
    cases happening with
    | notified listener change seen =>
        exact absurd hmem (not_mem_of_tellings h (.notified listener change seen) rfl)
    | reported d | noted n | ran b | requested r kind => rfl
  rw [List.map_congr_left hsame, List.map_id']

end Trace

end Holding

/-! ### Queueing and telling -/

namespace Progress

variable (p : Progress) (a : Acceptance)

/-- What queueing an acceptance leaves in the trace. -/
def displaced : Trace :=
  if p.scene.call.deferred.isSome then p.scene.call.reporter.happenings .deferredReplaced else []

@[simp] theorem deliveries_displaced : deliveries p.displaced = [] := by
  unfold displaced
  split <;> simp

@[simp] theorem requests_displaced : requests p.displaced = [] := by
  unfold displaced
  split <;> simp

theorem tellings_displaced : tellings p.displaced = [] := by
  unfold displaced
  split
  · exact tellings_happenings _ _
  · rfl

theorem enqueue_eq : p.enqueue a = ⟨p.scene.holding a, p.trace ++ p.displaced⟩ := by
  unfold enqueue displaced
  split
  · rfl
  · rw [List.append_nil]
    rfl

/-- **Queueing and telling may change places**, but for what a listener can read meanwhile. -/
theorem enqueue_notify (change : Change) :
    ((p.enqueue a).notify change).scene = ((p.notify change).enqueue a).scene ∧
      ∃ told : Trace, (p.notify change).trace = p.trace ++ told ∧
        ((p.enqueue a).notify change).trace =
          p.trace ++ p.displaced ++ told.map (Happening.holding a) := by
  have haudience : (p.scene.holding a).audience? = p.scene.audience? := rfl
  rw [enqueue_eq, enqueue_eq]
  unfold notify
  rw [haudience]
  cases p.scene.audience? with
  | none => exact ⟨rfl, [], (List.append_nil _).symm, (List.append_nil _).symm⟩
  | some listening =>
      obtain ⟨i, listener⟩ := listening
      by_cases hclosed : listener.outlet = .closed
      · simp only [if_pos hclosed]
        exact ⟨rfl, [.noted .receiverGone], rfl, rfl⟩
      · simp only [if_neg hclosed]
        exact ⟨rfl, [.notified i change p.scene], rfl, rfl⟩

end Progress

/-- Two outcomes that agree in all but the order of reports and notices, and in what a listener can
read while it takes a notice: in the first it finds an acceptance queued. -/
structure Outcome.Agrees (a : Acceptance) (once twice : Outcome) : Prop where
  reply : once.reply = twice.reply
  scene : once.scene = twice.scene
  defects : Trace.defects once.trace = Trace.defects twice.trace
  requests : Trace.requests once.trace = Trace.requests twice.trace
  told : Trace.deliveries once.trace = (Trace.deliveries twice.trace).map (Trace.Delivery.holding a)
  all : once.trace.Perm (twice.trace.map (Happening.holding a))

namespace Scene

variable {scene : Scene}

/-- What comes of queueing and telling agrees with what comes of telling and queueing. -/
theorem agrees_of_progress {p : Progress} (hquiet : tellings p.trace = []) (a : Acceptance)
    (change : Change) (reply : Reply) :
    Outcome.Agrees a (((p.enqueue a).notify change).outcome reply)
      (((p.notify change).enqueue a).outcome reply) := by
  obtain ⟨hscene, told, htold, hqueued⟩ := p.enqueue_notify a change
  have hdisplaced : (p.notify change).displaced = p.displaced := by
    unfold Progress.displaced
    rw [p.notify_call]
  have htwice : ((p.notify change).enqueue a).trace = p.trace ++ told ++ p.displaced := by
    rw [Progress.enqueue_eq, hdisplaced, htold]
  have hnoDefects : Trace.defects told = [] := by
    have hsame := p.defects_notify change
    rwa [htold, defects_append, List.append_right_eq_self] at hsame
  have hquietly : deliveries p.trace = [] := deliveries_of_tellings hquiet
  refine ⟨rfl, hscene, ?_, ?_, ?_, ?_⟩
  · show Trace.defects ((p.enqueue a).notify change).trace = Trace.defects _
    rw [hqueued, Progress.outcome_trace, htwice]
    simp [hnoDefects]
  · show Trace.requests ((p.enqueue a).notify change).trace = Trace.requests _
    rw [hqueued, Progress.outcome_trace, htwice]
    simp
  · show deliveries ((p.enqueue a).notify change).trace = _
    rw [hqueued, Progress.outcome_trace, htwice]
    simp [hquietly]
  · show ((p.enqueue a).notify change).trace.Perm _
    rw [hqueued, Progress.outcome_trace, htwice, List.map_append, List.map_append,
      map_holding_of_tellings a hquiet, map_holding_of_tellings a p.tellings_displaced,
      List.append_assoc, List.append_assoc]
    exact List.Perm.append_left _ List.perm_append_comm

end Scene

/-- An outcome in which nobody is told of anything agrees with itself. -/
theorem Outcome.agrees_self {a : Acceptance} {o : Outcome} (h : tellings o.trace = []) :
    Outcome.Agrees a o o where
  reply := rfl
  scene := rfl
  defects := rfl
  requests := rfl
  told := by rw [deliveries_of_tellings h, List.map_nil]
  all := by rw [map_holding_of_tellings a h]

namespace Scene

variable {scene : Scene}

/-- A call that was moved takes the acceptance. -/
theorem deferAcceptance_after {told : Progress} (hphase : told.scene.call.phase = .accepting)
    (howner : told.scene.call.owner = scene.call.owner) (a : Acceptance) :
    (told.outcome .done).andThen scene.call.owner (.deferAcceptance a) =
      (told.enqueue a).outcome .done := by
  have hqueued : told.scene.perform scene.call.owner (.deferAcceptance a) =
      (Progress.enqueue a ⟨told.scene, []⟩).outcome .done := by
    rw [← howner, perform_deferAcceptance, Call.bars_owner, if_neg Bool.false_ne_true,
      if_pos hphase, checked_owner]
  rw [Outcome.andThen_of_done rfl, Progress.outcome_scene, hqueued, Progress.enqueue_eq,
    Progress.enqueue_eq]
  rfl

/-- **At once or one after the other**, it comes to the same. -/
theorem awaitMedia_agrees (scene : Scene) (a : Acceptance) :
    Outcome.Agrees a (scene.perform scene.call.owner (.awaitMedia a))
      ((scene.perform scene.call.owner (.setPhase .accepting)).andThen scene.call.owner
        (.deferAcceptance a)) := by
  by_cases h : Phase.allows scene.call.enforced scene.call.phase .accepting = true
  · have hquiet : tellings (Progress.enter .accepting ⟨scene, []⟩).trace = [] :=
      ((Progress.Quiet.of_trace rfl rfl : Progress.Quiet scene ⟨scene, []⟩).enter _).hushed
    rw [perform_awaitMedia, perform_setPhase, Call.bars_owner, Call.bars_owner,
      if_neg Bool.false_ne_true, if_neg Bool.false_ne_true, if_pos h, if_pos h, checked_owner,
      checked_owner, deferAcceptance_after (by simp) (by simp)]
    exact agrees_of_progress hquiet a _ _
  · have hmove : Operation.rejection? scene.call (.setPhase .accepting) =
        some (.illegalTransition scene.call.phase .accepting) := if_neg h
    have hawait : Operation.rejection? scene.call (.awaitMedia a) =
        some (.illegalTransition scene.call.phase .accepting) := if_neg h
    obtain ⟨d, hd, hmoved⟩ := perform_rejected hmove
    obtain ⟨d', hd', hawaited⟩ := perform_rejected hawait
    obtain rfl : d = d' := Option.some.inj (hd.symm.trans hd')
    rw [hmoved, hawaited, Outcome.andThen_of_not_done (by simp)]
    exact Outcome.agrees_self (tellings_happenings _ _)

/-- Before the acceptance is queued a listener finds what was queued before. -/
theorem deferred_of_seen_in_two_steps (scene : Scene) (a : Acceptance) :
    ∀ d ∈ deliveries ((scene.perform scene.call.owner (.setPhase .accepting)).andThen
      scene.call.owner (.deferAcceptance a)).trace,
      d.seen.call.deferred = scene.call.deferred := by
  intro d hd
  by_cases h : Phase.allows scene.call.enforced scene.call.phase .accepting = true
  · rw [perform_setPhase, Call.bars_owner, if_neg Bool.false_ne_true, if_pos h, checked_owner,
      deferAcceptance_after (by simp) (by simp), Progress.outcome_trace,
      Progress.deliveries_enqueue] at hd
    rcases Progress.mem_deliveries_notify hd with hold | ⟨-, hseen⟩
    · simp at hold
    · rw [hseen]
      simp
  · have hmove : Operation.rejection? scene.call (.setPhase .accepting) =
        some (.illegalTransition scene.call.phase .accepting) := if_neg h
    obtain ⟨defect, -, hmoved⟩ := perform_rejected hmove
    rw [hmoved, Outcome.andThen_of_not_done (by simp)] at hd
    simp at hd

theorem deferred_of_awaitMedia {a : Acceptance}
    (h : (scene.perform scene.call.owner (.awaitMedia a)).reply = .done) :
    (scene.perform scene.call.owner (.awaitMedia a)).scene.call.deferred = some a := by
  have hallowed : Phase.allows scene.call.enforced scene.call.phase .accepting = true := by
    have hruled : (Operation.awaitMedia a).isRuled = true := rfl
    simpa [Operation.rejection?] using rejection?_of_done hruled h
  rw [perform_awaitMedia, Call.bars_owner, if_neg Bool.false_ne_true, if_pos hallowed]
  simp

/-- The one notice of waiting for the media engine goes to whoever follows the call. -/
theorem awaitMedia_delivers (scene : Scene) (thread : Thread) (a : Acceptance) :
    let o := scene.perform thread (.awaitMedia a)
    (deliveries o.trace).map (·.posted) =
      (if o.reply = .done then scene.call.route? scene.around (.phase .accepting)
        else none).toList := by
  intro o
  have hnothingRan : acceptances o.trace = [] := by
    rw [List.eq_nil_iff_forall_not_mem]
    intro b hb
    rcases ((scene.perform_step thread (.awaitMedia a)).runs b hb).2 with ⟨hop, -⟩ | ⟨hop, -⟩
    · cases hop
    · cases hop
  have hdelivers := ((scene.perform_announces thread (.awaitMedia a)).delivers
    (congrArg Fixed.id (scene.perform_fixed thread (.awaitMedia a)))).1
  have hran : scene.around.ran o.trace = scene.around := by
    rw [Surroundings.ran, hnothingRan]
    rfl
  rw [hran] at hdelivers
  rw [hdelivers]
  unfold Operation.news? Operation.assigned?
  by_cases hdone : o.reply = .done
  · simp [o, hdone]
  · simp [o, hdone]

end Scene

/-- **Waiting for the media engine in one step agrees with doing so in two.**  Any call may start
and live through any deeds, and then, on its own thread and among anything, be given an acceptance
that waits: at once, or by being moved to `accepting` and, if that was done, given the acceptance.
The second step never fails, and either way the reply is the same, the call is left the same with
the same acceptance queued, the same defects are reported in the same order, records are asked the
same, and the listener of the call takes the same one notice.  An acceptance is reported to be
replaced just if one was queued in `accepting` before.  Nothing else differs but what a listener
reads when it takes the notice: that the new acceptance is queued, or what was queued before. -/
theorem waiting_in_one_step_or_two (setup : CallSetup) (address : Address) (settings : Settings)
    (reporter : Reporter) (owner : Thread) (past : List Deed) (around : Surroundings)
    (a : Acceptance) :
    let call := (Call.start setup address settings reporter owner).after past
    let once := Scene.perform ⟨call, around⟩ call.owner (.awaitMedia a)
    let moved := Scene.perform ⟨call, around⟩ call.owner (.setPhase .accepting)
    let twice := moved.andThen call.owner (.deferAcceptance a)
    (moved.reply = .done → twice.reply = .done) ∧
    Outcome.Agrees a once twice ∧
    (once.reply = .done →
      once.scene.call.deferred = some a ∧
      defects once.trace =
        if call.phase = .accepting ∧ call.deferred.isSome then [.deferredReplaced] else []) ∧
    (deliveries once.trace).map (·.posted) =
      (if once.reply = .done then call.route? around (.phase .accepting) else none).toList ∧
    (∀ d ∈ deliveries once.trace, d.seen.call.deferred = some a) ∧
    ∀ d ∈ deliveries twice.trace, d.seen.call.deferred = call.deferred := by
  intro call once moved twice
  have horderly : call.Orderly :=
    Call.after_orderly (Call.start_orderly setup address settings reporter owner) past
  have hagrees : Outcome.Agrees a once twice := Scene.awaitMedia_agrees ⟨call, around⟩ a
  have hruled : (Operation.awaitMedia a).isRuled = true := rfl
  refine ⟨?_, hagrees, ?_, Scene.awaitMedia_delivers ⟨call, around⟩ call.owner a, ?_,
    Scene.deferred_of_seen_in_two_steps ⟨call, around⟩ a⟩
  · intro hdone
    have hmove : (Operation.setPhase .accepting).isRuled = true := rfl
    have htaken : Operation.rejection? call (.setPhase .accepting) = none :=
      @Scene.rejection?_of_done ⟨call, around⟩ _ hmove hdone
    rw [← hagrees.reply]
    exact (@Scene.perform_taken ⟨call, around⟩ _ hruled htaken).1
  · intro hdone
    have hdefects : defects once.trace = _ :=
      @Scene.defects_of_done ⟨call, around⟩ _ hruled hdone
    refine ⟨Scene.deferred_of_awaitMedia hdone, ?_⟩
    rw [hdefects]
    cases hqueued : call.deferred with
    | none => simp
    | some b =>
        have hphase : call.phase = .accepting := horderly (by rw [hqueued]; rfl)
        simp [Operation.given?, hphase]
  · intro d hd
    rw [hagrees.told, List.mem_map] at hd
    obtain ⟨seen, -, rfl⟩ := hd
    rfl

/-- A second acceptance takes the place of the first in either form, and the listener of the call
reads in one of them that the second is queued and in the other that the first still is. -/
theorem second_acceptance_replaces_first_in_either_form :
    let past := [Deed.plain (.attach 0), .plain (.setPhase .ringingAnticipatory),
      .plain (.answer { name := "first" })]
    let call := Call.incoming.after past
    let around : Surroundings := ⟨[], [], [.observer]⟩
    let second : Acceptance := { name := "second" }
    let once := Scene.perform ⟨call, around⟩ call.owner (.awaitMedia second)
    let moved := Scene.perform ⟨call, around⟩ call.owner (.setPhase .accepting)
    let twice := moved.andThen call.owner (.deferAcceptance second)
    twice.reply = .done ∧ once.scene = twice.scene ∧
      twice.scene.call.deferred = some second ∧
      defects once.trace = [.deferredReplaced] ∧ defects twice.trace = [.deferredReplaced] ∧
      (deliveries once.trace).map (·.seen.call.deferred) = [some second] ∧
      (deliveries twice.trace).map (·.seen.call.deferred) = [some { name := "first" }] := by
  intro past call around second once moved twice
  obtain ⟨hsecond, hall, hqueued, -⟩ := waiting_in_one_step_or_two
    (CallSetup.offered 0 .blank 0 .audio .granted) ⟨none, none⟩ {} .collecting 0 past around second
  have hagrees : Outcome.Agrees second once twice := hall
  obtain ⟨hdeferred, hreplaced⟩ := hqueued (by decide)
  have htwice : twice.scene.call.deferred = some second := hagrees.scene ▸ hdeferred
  exact ⟨hsecond (by decide), hagrees.scene, htwice, hreplaced,
    hagrees.defects.symm.trans hreplaced, by decide, by decide⟩

end CallLifecycle
