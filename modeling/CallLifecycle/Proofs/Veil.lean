/-
What makes no difference.

Who listens to a call should make no difference to the call, and neither should the thread
an operation is called on, nor whether the table is enforced where it refuses nothing.  A
`Veil` hides one or more of these three from view: from a call, from what surrounds it, and
from the trace of what happens.

What is hidden makes no difference if an operation comes to the same, as far as can be
seen, whether the veil is put up before or after it.  `Veil.outcome_perform` says so.  Each of
the parts that an operation is made of commutes with a veil, and an operation is a chain of
such parts whose branches go by what no veil hides.  `Veil.Passes` has the three exceptions:
a listener that is attached, a move that the table refuses, and a check on which a reporter
gives up.
-/
import CallLifecycle.Proofs.Findings
import CallLifecycle.Proofs.Telling

namespace CallLifecycle

open Trace

/-- What is hidden from view. -/
structure Veil where
  /-- Who follows calls, and what they are told. -/
  listeners : Bool := false
  /-- Whether the table is enforced. -/
  table : Bool := false
  /-- Which threads operations are called on. -/
  threads : Bool := false

namespace Veil

variable (v : Veil)

/-- What can be seen of a call. -/
def call (call : Call) : Call :=
  { call with
    listener := if v.listeners then none else call.listener
    enforced := !v.table && call.enforced }

/-- What can be seen of what surrounds the calls. -/
def around (around : Surroundings) : Surroundings :=
  { around with listeners := if v.listeners then [] else around.listeners }

/-- What can be seen of a scene. -/
def scene (scene : Scene) : Scene :=
  ⟨v.call scene.call, v.around scene.around⟩

/-- Whether a note is hidden. -/
def hides : Note → Bool
  | .receiverGone => v.listeners
  | .defect d => v.threads && d.isStray
  | _ => false

/-- What can be seen of a happening, if anything can. -/
def happening? : Happening → Option Happening
  | .reported d => if v.threads && d.isStray then none else some (.reported d)
  | .noted note => if v.hides note then none else some (.noted note)
  | .notified listener change seen =>
    if v.listeners then none else some (.notified listener change (v.scene seen))
  | .ran acceptance => some (.ran acceptance)
  | .requested record kind => some (.requested record kind)

/-- What can be seen of a trace. -/
def trace (trace : Trace) : Trace :=
  trace.filterMap v.happening?

/-- What can be seen of an operation that is under way. -/
def progress (p : Progress) : Progress :=
  ⟨v.scene p.scene, v.trace p.trace⟩

/-- What can be seen of an outcome. -/
def outcome (o : Outcome) : Outcome :=
  ⟨v.scene o.scene, v.trace o.trace, o.reply⟩

/-- The thread that an operation on a call seems to be called on. -/
def thread (call : Call) (thread : Thread) : Thread :=
  if v.threads then call.owner else thread

/-! ### Traces -/

section Traces

variable (s t : Trace)

@[simp] theorem trace_nil : v.trace [] = [] := rfl

@[simp] theorem trace_append : v.trace (s ++ t) = v.trace s ++ v.trace t :=
  List.filterMap_append

/-- A note that is not hidden. -/
theorem trace_noted {note : Note} (h : v.hides note = false) :
    v.trace (.noted note :: t) = .noted note :: v.trace t := by
  show List.filterMap _ _ = _
  rw [List.filterMap_cons_some (b := .noted note)]
  · rfl
  · exact if_neg (by simp [h])

theorem trace_happenings (reporter : Reporter) {d : Defect} (h : d.isStray = false) :
    v.trace (reporter.happenings d) = reporter.happenings d := by
  rcases happenings_cases reporter d with heq | heq <;> simp [heq, trace, happening?, hides, h]

/-- A veil that drops some happenings and shows all others as they are. -/
theorem trace_eq_filter {v : Veil} {drops : Happening → Bool}
    (h : ∀ happening, v.happening? happening = if drops happening then none else some happening)
    (t : Trace) : v.trace t = t.filter (!drops ·) := by
  unfold Veil.trace
  induction t with
  | nil => rfl
  | cons happening rest ih =>
      cases hdropped : drops happening with
      | true =>
          rw [List.filterMap_cons_none (by simp [h, hdropped]), ih,
            List.filter_cons_of_neg (by simp [hdropped])]
      | false =>
          rw [List.filterMap_cons_some (b := happening) (by simp [h, hdropped]), ih,
            List.filter_cons_of_pos (by simp [hdropped])]

end Traces

/-! ### The parts of an operation -/

section Parts

variable (p : Progress)

theorem progress_add (t : Trace) : v.progress (p.add t) = (v.progress p).add (v.trace t) := by
  unfold progress Progress.add
  rw [trace_append]

theorem progress_mapCall {f : Call → Call} (h : ∀ c : Call, v.call (f c) = f (v.call c)) :
    v.progress (p.mapCall f) = (v.progress p).mapCall f := by
  unfold progress scene Progress.mapCall
  rw [h]

theorem progress_mapAround {f : Surroundings → Surroundings}
    (h : v.around (f p.scene.around) = f (v.around p.scene.around)) :
    v.progress (p.mapAround f) = (v.progress p).mapAround f := by
  unfold progress scene Progress.mapAround
  rw [h]

theorem progress_promoteRecord :
    v.progress p.promoteRecord = (v.progress p).promoteRecord := by
  have hdue : (v.progress p).scene.promotion? = p.scene.promotion? := rfl
  unfold Progress.promoteRecord
  rw [hdue]
  cases p.scene.promotion? with
  | none => rfl
  | some due =>
      show v.progress (Progress.mapAround _ (p.add _)) = Progress.mapAround _ (Progress.add _ _)
      rw [progress_mapAround, progress_add]
      · rfl
      · rfl

theorem progress_discardDeferred :
    v.progress p.discardDeferred = (v.progress p).discardDeferred := by
  unfold Progress.discardDeferred
  show _ = if p.scene.call.deferred.isSome then _ else _
  split
  · rw [progress_add, progress_mapCall]
    · rfl
    · exact fun _ => rfl
  · rfl

theorem progress_enter (new : Phase) : v.progress (p.enter new) = (v.progress p).enter new := by
  unfold Progress.enter
  by_cases hnew : new = .accepting
  · rw [if_pos hnew, if_pos hnew, progress_promoteRecord, progress_add, progress_mapCall]
    · rfl
    · exact fun _ => rfl
  · rw [if_neg hnew, if_neg hnew, progress_promoteRecord, progress_discardDeferred, progress_add,
      progress_mapCall]
    · rfl
    · exact fun _ => rfl

theorem progress_enqueue (a : Acceptance) :
    v.progress (p.enqueue a) = (v.progress p).enqueue a := by
  unfold Progress.enqueue
  show _ = if p.scene.call.deferred.isSome then _ else _
  split
  · rw [progress_add, progress_mapCall, trace_happenings _ _ rfl]
    · rfl
    · exact fun _ => rfl
  · exact progress_mapCall _ _ fun _ => rfl

/-- What is hidden of the surroundings is nothing to what else is done there. -/
theorem around_apply (around : Surroundings) (step : OutsideStep) :
    v.around (around.apply step) = (v.around around).apply step := by
  cases step with
  | contactChange i new => rfl
  | recordChange i kind => rfl
  | listenerDrop i | receiverDrop i | receiverDrain i =>
      unfold Veil.around Surroundings.apply Surroundings.modifyListener
      by_cases hv : v.listeners = true
      · simp [hv]
      · simp [hv]

theorem around_applyAll (around : Surroundings) (steps : List OutsideStep) :
    v.around (around.applyAll steps) = (v.around around).applyAll steps := by
  induction steps generalizing around with
  | nil => rfl
  | cons step rest ih =>
      show v.around ((around.apply step).applyAll rest) =
        ((v.around around).apply step).applyAll rest
      rw [ih, around_apply]

theorem progress_carryOut (a : Acceptance) :
    v.progress (p.carryOut a) = (v.progress p).carryOut a := by
  have hlament : ∀ call, v.trace (a.lament call) = a.lament call := by
    intro call
    unfold Acceptance.lament
    cases a.failure <;> rfl
  unfold Progress.carryOut Progress.runAcceptance
  rw [progress_add, hlament, progress_mapAround, progress_add]
  · rfl
  · exact v.around_applyAll _ _

/-- Where it is hidden who listens, nobody seems to be told. -/
theorem progress_notify_of_listeners {v : Veil} (h : v.listeners = true) (change : Change) :
    v.progress (p.notify change) = v.progress p ∧
      (v.progress p).notify change = v.progress p := by
  constructor
  · have hscene : ∀ i f, v.scene ⟨p.scene.call, p.scene.around.modifyListener i f⟩ =
        v.scene p.scene := by
      intro i f
      simp [scene, Veil.around, Surroundings.modifyListener, h]
    rcases p.notify_cases change with hsame | hgone | ⟨i, htold⟩
    · rw [hsame]
    · rw [hgone, progress_add]
      simp [trace, happening?, hides, h, Progress.add, progress]
    · rw [htold]
      show Progress.mk (v.scene ⟨p.scene.call, p.scene.around.modifyListener i _⟩)
        (v.trace (p.trace ++ [.notified i change p.scene])) = v.progress p
      rw [trace_append, hscene]
      simp [trace, happening?, h, progress]
  · have hnobody : (v.progress p).scene.audience? = none := by
      simp [progress, scene, call, Scene.audience?, h]
    unfold Progress.notify
    rw [hnobody]

theorem progress_notify (change : Change) :
    v.progress (p.notify change) = (v.progress p).notify change := by
  cases hv : v.listeners with
  | true =>
      obtain ⟨hleft, hright⟩ := progress_notify_of_listeners p hv change
      rw [hleft, hright]
  | false =>
      have haudience : (v.progress p).scene.audience? = p.scene.audience? := by
        simp [progress, scene, call, Veil.around, Scene.audience?, Surroundings.liveListener?, hv]
      unfold Progress.notify
      rw [haudience]
      cases p.scene.audience? with
      | none => rfl
      | some found =>
          obtain ⟨i, listener⟩ := found
          show v.progress (if _ then _ else _) = if _ then _ else _
          split
          · rw [progress_add]
            simp [trace, happening?, hides, hv]
          · rw [progress_mapAround, progress_add]
            · simp [trace, happening?, hv, progress, scene, call]
            · simp [Veil.around, Surroundings.modifyListener, hv]

end Parts

end Veil

/-! ### Checks -/

/-- Whether an operation is about who follows the call. -/
def Operation.isWatch : Operation → Bool
  | attach _ | detach => true
  | _ => false

/-- When what a veil hides makes no difference to an operation. -/
structure Veil.Passes (v : Veil) (call : Call) (thread : Thread) (op : Operation) : Prop where
  /-- Who follows the call stays as it is, if it is hidden. -/
  listeners : v.listeners = true → op.isWatch = false
  /-- What the table refuses is refused without it, if it is hidden. -/
  table : v.table = true → call.cutsShort thread op = false → ∀ new, op.asked? = some new →
    Phase.allows call.enforced call.phase new = Phase.allows false call.phase new
  /-- Nothing is given up because of its thread, if that is hidden. -/
  threads : v.threads = true → call.reporter.NeverGivesUp

namespace Veil

variable {v : Veil} {scene : Scene} {thread : Thread} {op : Operation}

section Checks

variable (v : Veil) (call : Call) (thread : Thread) (operation : String)

/-- A check on a foreign thread leaves no trace where threads are hidden. -/
theorem trace_strayed :
    v.trace (call.strayed thread operation) =
      (v.call call).strayed (v.thread call thread) operation := by
  show _ = if v.thread call thread = call.owner then []
    else call.reporter.happenings (.offContext operation call.owner (v.thread call thread))
  unfold Call.strayed Veil.thread
  cases hv : v.threads with
  | true =>
      rw [if_pos rfl, if_pos rfl]
      split
      · rfl
      · rcases happenings_cases call.reporter (.offContext operation call.owner thread)
          with heq | heq <;>
          simp [heq, trace, happening?, hides, hv, Defect.isStray]
  | false =>
      simp only [Bool.false_eq_true, ↓reduceIte]
      split
      · rfl
      · rcases happenings_cases call.reporter (.offContext operation call.owner thread)
          with heq | heq <;>
          simp [heq, trace, happening?, hides, hv]

theorem progress_checked (scene : Scene) :
    v.progress (scene.checked thread operation) =
      (v.scene scene).checked (v.thread scene.call thread) operation := by
  unfold Scene.checked progress
  rw [trace_strayed]
  rfl

end Checks

section Given

variable (h : v.threads = true → scene.call.reporter.NeverGivesUp)
include h

theorem bars_thread (operation : String) :
    (v.call scene.call).bars (v.thread scene.call thread) operation =
      scene.call.bars thread operation := by
  unfold Veil.thread
  cases hv : v.threads with
  | true =>
      have hown : (v.call scene.call).bars scene.call.owner operation = false :=
        Call.bars_eq_false (Or.inl rfl) operation
      rw [if_pos rfl, hown, Call.bars_eq_false (Or.inr (h hv))]
  | false => rfl

/-- Where an operation is given up, its thread is in view. -/
theorem thread_of_bars {operation : String} (hb : scene.call.bars thread operation = true) :
    v.thread scene.call thread = thread := by
  unfold Veil.thread
  cases hv : v.threads with
  | true =>
      rw [Call.bars_eq_false (Or.inr (h hv))] at hb
      cases hb
  | false => rfl

/-- An operation that makes a check first is given up there, behind a veil as before it. -/
theorem outcome_checked {operation : String} {o o' : Outcome}
    (hdone : scene.call.bars thread operation = false → v.outcome o = o') :
    v.outcome (if scene.call.bars thread operation then scene.giveUp thread operation else o) =
      if (v.call scene.call).bars (v.thread scene.call thread) operation then
        (v.scene scene).giveUp (v.thread scene.call thread) operation
      else o' := by
  rw [bars_thread h]
  cases hb : scene.call.bars thread operation with
  | true =>
      show v.outcome (scene.giveUp thread operation) = Scene.giveUp _ _ _
      unfold Scene.giveUp
      rw [← progress_checked, thread_of_bars h hb]
      rfl
  | false => exact hdone hb

end Given

/-! ### Operations -/

section Outcomes

variable (v) (p : Progress)

@[simp] theorem outcome_outcome (reply : Reply) :
    v.outcome (p.outcome reply) = (v.progress p).outcome reply := rfl

theorem outcome_refusal (scene : Scene) (thread : Thread) (operation : String) {d : Defect}
    (hd : d.isStray = false) (reply : Reply) :
    v.outcome (((scene.checked thread operation).add
        (scene.call.reporter.happenings d)).outcome reply) =
      (((v.scene scene).checked (v.thread scene.call thread) operation).add
        (scene.call.reporter.happenings d)).outcome reply := by
  rw [outcome_outcome, progress_add, progress_checked, trace_happenings _ _ hd]

theorem outcome_enter (new : Phase) (reply : Reply) :
    v.outcome (((p.enter new).notify (.phase new)).outcome reply) =
      (((v.progress p).enter new).notify (.phase new)).outcome reply := by
  rw [outcome_outcome, progress_notify, progress_enter]

theorem outcome_queue (a : Acceptance) (reply : Reply) :
    v.outcome ((((p.enter .accepting).enqueue a).notify (.phase .accepting)).outcome reply) =
      ((((v.progress p).enter .accepting).enqueue a).notify (.phase .accepting)).outcome reply := by
  rw [outcome_outcome, progress_notify, progress_enqueue, progress_enter]

end Outcomes

theorem outcome_conclude {p : Progress}
    (h : v.threads = true → p.scene.call.reporter.NeverGivesUp) (a : Acceptance) :
    v.outcome (p.conclude thread a) =
      (v.progress p).conclude (v.thread p.scene.call thread) a := by
  have hchecked : v.progress ((p.carryOut a).add (p.scene.call.strayed thread "set_state")) =
      ((v.progress p).carryOut a).add
        ((v.call p.scene.call).strayed (v.thread p.scene.call thread) "set_state") := by
    rw [progress_add, progress_carryOut, trace_strayed]
  unfold Progress.conclude
  show v.outcome (if p.scene.call.bars thread "set_state" then _ else _) =
    if (v.call p.scene.call).bars (v.thread p.scene.call thread) "set_state" then _ else _
  rw [bars_thread h]
  cases hb : p.scene.call.bars thread "set_state" with
  | true =>
      simp only [↓reduceIte]
      rw [outcome_outcome, hchecked, thread_of_bars h hb]
      rfl
  | false =>
      simp only [Bool.false_eq_true, ↓reduceIte]
      rw [outcome_enter, hchecked]
      rfl

theorem outcome_setPhase {new : Phase}
    (h : v.threads = true → scene.call.reporter.NeverGivesUp)
    (hallows : scene.call.bars thread "set_state" = false →
      Phase.allows (v.call scene.call).enforced scene.call.phase new =
        Phase.allows scene.call.enforced scene.call.phase new) :
    v.outcome (scene.perform thread (.setPhase new)) =
      (v.scene scene).perform (v.thread scene.call thread) (.setPhase new) := by
  rw [scene.perform_setPhase, Scene.perform_setPhase]
  refine outcome_checked h fun hb => ?_
  show _ = if Phase.allows (v.call scene.call).enforced scene.call.phase new then _ else _
  rw [hallows hb]
  split
  · rw [outcome_enter, progress_checked]
  · exact v.outcome_refusal scene thread _ rfl _

theorem Passes.allows (h : v.Passes scene.call thread op) {new : Phase}
    (hasked : op.asked? = some new) (hb : scene.call.cutsShort thread op = false) :
    Phase.allows (v.call scene.call).enforced scene.call.phase new =
      Phase.allows scene.call.enforced scene.call.phase new := by
  show Phase.allows (!v.table && scene.call.enforced) scene.call.phase new = _
  cases hv : v.table with
  | true => exact (h.table hv hb new hasked).symm
  | false => rfl

theorem outcome_answer {a : Acceptance} (h : v.Passes scene.call thread (.answer a)) :
    v.outcome (scene.perform thread (.answer a)) =
      (v.scene scene).perform (v.thread scene.call thread) (.answer a) := by
  by_cases hready : scene.call.phase = .ringingReadyToAnswer
  · have hseen : (v.scene scene).call.phase = .ringingReadyToAnswer := hready
    rw [Scene.perform_answer_of_ready hready, Scene.perform_answer_of_ready hseen]
    exact outcome_conclude (p := ⟨scene, []⟩) h.threads a
  · by_cases hanticipatory : scene.call.phase = .ringingAnticipatory
    · have hseen : (v.scene scene).call.phase = .ringingAnticipatory := hanticipatory
      have hnoted : v.progress ⟨scene, .noted (.acceptanceDeferred scene.call.label) ::
          scene.call.strayed thread "begin_accepting"⟩ =
          ⟨v.scene scene, .noted (.acceptanceDeferred scene.call.label) ::
            (v.call scene.call).strayed (v.thread scene.call thread) "begin_accepting"⟩ := by
        unfold progress
        rw [trace_noted _ _ rfl, trace_strayed]
      rw [Scene.perform_answer_of_anticipatory hanticipatory,
        Scene.perform_answer_of_anticipatory hseen]
      show v.outcome (if scene.call.bars thread "begin_accepting" then _ else _) =
        if (v.call scene.call).bars (v.thread scene.call thread) "begin_accepting" then _ else _
      rw [bars_thread h.threads]
      cases hb : scene.call.bars thread "begin_accepting" with
      | true =>
          simp only [↓reduceIte]
          rw [outcome_outcome, hnoted, thread_of_bars h.threads hb]
          rfl
      | false =>
          simp only [Bool.false_eq_true, ↓reduceIte]
          rw [outcome_queue, hnoted]
          rfl
    · have hseen : (v.scene scene).call.phase ≠ .ringingReadyToAnswer ∧
          (v.scene scene).call.phase ≠ .ringingAnticipatory := ⟨hready, hanticipatory⟩
      rw [Scene.perform_answer_of_not_ringing hready hanticipatory,
        Scene.perform_answer_of_not_ringing hseen.1 hseen.2]
      rfl

theorem outcome_engineReady (h : v.Passes scene.call thread .engineReady) :
    v.outcome (scene.perform thread .engineReady) =
      (v.scene scene).perform (v.thread scene.call thread) .engineReady := by
  by_cases hunanswered : scene.call.phase = .answering ∨ scene.call.phase = .ringingAnticipatory
  · have hseen : (v.scene scene).call.phase = .answering ∨
        (v.scene scene).call.phase = .ringingAnticipatory := hunanswered
    rw [Scene.perform_engineReady_of_unanswered hunanswered,
      Scene.perform_engineReady_of_unanswered hseen]
    -- Both rules allow the one move that is made here.
    have hallowed : ∀ enforced, Phase.allows enforced scene.call.phase .ringingReadyToAnswer =
        true := by
      intro enforced
      rcases hunanswered with hphase | hphase <;> rw [hphase] <;> cases enforced <;> rfl
    exact outcome_setPhase h.threads fun _ => by rw [hallowed, hallowed]
  · by_cases hphase : scene.call.phase = .accepting
    · have hseen : (v.scene scene).call.phase = .accepting := hphase
      cases hdeferred : scene.call.deferred with
      | some a =>
          have hqueued : (v.scene scene).call.deferred = some a := hdeferred
          rw [Scene.perform_engineReady_of_queued hphase hdeferred,
            Scene.perform_engineReady_of_queued hseen hqueued]
          refine outcome_checked h.threads fun _ => ?_
          rw [← progress_checked]
          have hcleared := v.progress_mapCall (scene.checked thread "take_deferred_acceptance")
            (f := ({ · with deferred := none })) fun _ => rfl
          rw [← hcleared]
          exact outcome_conclude h.threads a
      | none =>
          have hqueued : (v.scene scene).call.deferred = none := hdeferred
          rw [Scene.perform_engineReady_of_nothing_queued hphase hdeferred,
            Scene.perform_engineReady_of_nothing_queued hseen hqueued]
          have hreported : v.progress
              (((scene.checked thread "take_deferred_acceptance").add
                (scene.call.reporter.happenings .acceptingWithoutDeferred)).add
                  (scene.call.strayed thread "set_state")) =
              (((v.scene scene).checked (v.thread scene.call thread)
                "take_deferred_acceptance").add
                  (scene.call.reporter.happenings .acceptingWithoutDeferred)).add
                    ((v.call scene.call).strayed (v.thread scene.call thread) "set_state") := by
            rw [progress_add, progress_add, trace_strayed, trace_happenings _ _ rfl,
              progress_checked]
          refine outcome_checked h.threads fun _ => ?_
          show v.outcome (if scene.call.bars thread "set_state" then _ else _) =
            if (v.call scene.call).bars (v.thread scene.call thread) "set_state" then _ else _
          rw [bars_thread h.threads]
          cases hb : scene.call.bars thread "set_state" with
          | true =>
              simp only [↓reduceIte]
              rw [outcome_outcome, hreported, thread_of_bars h.threads hb]
              rfl
          | false =>
              simp only [Bool.false_eq_true, ↓reduceIte]
              rw [outcome_enter, hreported]
              rfl
    · rw [not_or] at hunanswered
      have hseen : ((v.scene scene).call.phase ≠ .answering ∧
          (v.scene scene).call.phase ≠ .ringingAnticipatory) ∧
            (v.scene scene).call.phase ≠ .accepting := ⟨hunanswered, hphase⟩
      rw [Scene.perform_engineReady_of_else hunanswered.1 hunanswered.2 hphase,
        Scene.perform_engineReady_of_else hseen.1.1 hseen.1.2 hseen.2]
      rfl

/-- **What is hidden makes no difference to an operation**, as far as can be seen. -/
theorem outcome_perform (h : v.Passes scene.call thread op) :
    v.outcome (scene.perform thread op) =
      (v.scene scene).perform (v.thread scene.call thread) op := by
  -- An operation that changes the call and no more.
  have hmapCall : ∀ operation (f : Call → Call), (∀ c, v.call (f c) = f (v.call c)) →
      v.progress ((scene.checked thread operation).mapCall f) =
        ((v.scene scene).checked (v.thread scene.call thread) operation).mapCall f := by
    intro operation f hf
    rw [progress_mapCall _ _ hf, progress_checked]
  cases op with
  | setPhase new =>
      refine outcome_setPhase h.threads fun hb => h.allows rfl ?_
      rw [Call.cutsShort_eq_bars rfl (by split <;> rfl), hb]
  | awaitMedia a =>
      rw [scene.perform_awaitMedia, Scene.perform_awaitMedia]
      refine outcome_checked h.threads fun hb => ?_
      show _ = if Phase.allows (v.call scene.call).enforced scene.call.phase .accepting then _
        else _
      have hpassed : scene.call.cutsShort thread (.awaitMedia a) = false := by
        rw [Call.cutsShort_eq_bars rfl, hb]
        split
        · exact scene.call.checks_replacing
        · rfl
      rw [h.allows rfl hpassed]
      split
      · rw [outcome_queue, progress_checked]
      · exact v.outcome_refusal scene thread _ rfl _
  | deferAcceptance a =>
      rw [scene.perform_deferAcceptance, Scene.perform_deferAcceptance]
      refine outcome_checked h.threads fun _ => ?_
      show _ = if scene.call.phase = .accepting then _ else _
      split
      · rw [outcome_outcome, progress_enqueue, progress_checked]
      · exact v.outcome_refusal scene thread _ rfl _
  | handOver =>
      rw [scene.perform_handOver, Scene.perform_handOver]
      refine outcome_checked h.threads fun _ => ?_
      rw [outcome_outcome, hmapCall]
      · rfl
      · exact fun _ => rfl
  | answer a => exact outcome_answer h
  | engineReady => exact outcome_engineReady h
  | linkRecord record =>
      rw [scene.perform_linkRecord, Scene.perform_linkRecord]
      refine outcome_checked h.threads fun _ => ?_
      show _ = if scene.call.record.isSome then _ else _
      split
      · exact v.outcome_refusal scene thread _ rfl _
      · rw [outcome_outcome, progress_promoteRecord, hmapCall]
        exact fun _ => rfl
  | assignSignalingId id =>
      have hnoted : v.trace (scene.call.reassignment id) = scene.call.reassignment id := by
        unfold Call.reassignment
        split
        · rfl
        · split <;> rfl
      rw [scene.perform_assignSignalingId, Scene.perform_assignSignalingId]
      refine outcome_checked h.threads fun _ => ?_
      show v.outcome (Progress.outcome _ _) = _
      rw [outcome_outcome, progress_add, progress_mapCall, progress_add, hnoted, progress_checked]
      · rfl
      · exact fun _ => rfl
  | setSwitch switch on =>
      have hset : ∀ c, v.call (switch.set on c) = switch.set on (v.call c) := by
        intro c
        cases switch <;> rfl
      have hold : switch.isOn (v.call scene.call) = switch.isOn scene.call := by
        cases switch <;> rfl
      have hnoted : v.trace [.noted (switch.note (switch.isOn scene.call) on)] =
          [.noted (switch.note (switch.isOn scene.call) on)] := by
        cases switch <;> rfl
      rw [scene.perform_setSwitch, Scene.perform_setSwitch]
      refine outcome_checked h.threads fun _ => ?_
      rw [outcome_outcome, progress_notify, progress_add, hmapCall _ _ hset, hnoted, ← hold]
      rfl
  | setRoute route =>
      rw [scene.perform_setRoute, Scene.perform_setRoute]
      refine outcome_checked h.threads fun _ => ?_
      rw [outcome_outcome, progress_add, hmapCall]
      · rfl
      · exact fun _ => rfl
  | attach listener =>
      have hshown : v.listeners = false := by
        cases hv : v.listeners with
        | true => cases h.listeners hv
        | false => rfl
      rw [scene.perform_attach, Scene.perform_attach]
      refine outcome_checked h.threads fun _ => ?_
      rw [outcome_outcome, hmapCall]
      intro c
      simp [call, hshown]
  | detach =>
      rw [scene.perform_detach, Scene.perform_detach]
      refine outcome_checked h.threads fun _ => ?_
      rw [outcome_outcome, hmapCall]
      intro c
      simp [call]
  | register =>
      rw [scene.perform_register, Scene.perform_register]
      refine outcome_checked h.threads fun _ => ?_
      rw [outcome_outcome, hmapCall]
      exact fun _ => rfl
  | deregister =>
      rw [scene.perform_deregister, Scene.perform_deregister]
      refine outcome_checked h.threads fun _ => ?_
      show _ = if scene.call.registered then _ else _
      split
      · rw [outcome_outcome, hmapCall]
        exact fun _ => rfl
      · exact v.outcome_refusal scene thread _ rfl _

end Veil

end CallLifecycle
