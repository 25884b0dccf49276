/-
What each operation comes to.

An operation is a monadic program; here each one is solved, once, to an equation
for its outcome, and nothing later opens the programs again.

All but two operations check their context before anything else.  On a foreign
thread the check leaves a report, and if the reporter gives up on that, the operation
is given up with the scene as it was: `perform_of_checked` says that of all of them,
and leaves the rest of the program.  `answer` and `engineReady` make no check of
their own, so their equations go by the phase that they find.  Both may end in
`Progress.conclude`, which runs an acceptance and moves the call as the acceptance
decides.  That move is never refused: an acceptance runs only in a phase that may
both connect and fail, whether the table is enforced or not.
-/
import CallLifecycle.Proofs.Progress

namespace CallLifecycle

open Trace

/-! ### The check of the context -/

/-- Whether there is no defect that a reporter gives up on. -/
def Reporter.NeverGivesUp (reporter : Reporter) : Prop :=
  ∀ d, reporter.abortsOn d = false

theorem Reporter.neverGivesUp_collecting : Reporter.collecting.NeverGivesUp :=
  fun _ => Bool.and_false _

theorem Reporter.neverGivesUp_logging : (Reporter.logging false).NeverGivesUp :=
  fun _ => Bool.and_false _

namespace Call

variable (call : Call) (thread : Thread)

/-- Whether whoever checks the context on a thread, in the name of an operation, is given up. -/
def bars (operation : String) : Bool :=
  thread ≠ call.owner && call.reporter.abortsOn (.offContext operation call.owner thread)

/-- What a check of the context leaves in the trace. -/
def strayed (operation : String) : Trace :=
  if thread = call.owner then []
  else call.reporter.happenings (.offContext operation call.owner thread)

/-- Nothing is given up on the call's own thread, nor by a reporter that never gives up. -/
theorem bars_eq_false {call : Call} {thread : Thread}
    (h : thread = call.owner ∨ call.reporter.NeverGivesUp) (operation : String) :
    call.bars thread operation = false := by
  rcases h with rfl | h
  · simp [bars]
  · rw [bars, h, Bool.and_false]

@[simp] theorem acceptances_strayed (operation : String) :
    acceptances (call.strayed thread operation) = [] := by
  unfold strayed
  split <;> simp

@[simp] theorem deliveries_strayed (operation : String) :
    deliveries (call.strayed thread operation) = [] := by
  unfold strayed
  split <;> simp

@[simp] theorem requests_strayed (operation : String) :
    requests (call.strayed thread operation) = [] := by
  unfold strayed
  split <;> simp

/-- What is logged when a call that has a signaling identifier is given another. -/
def reassignment (id : UInt64) : Trace :=
  match call.signalingId with
  | none => []
  | some old => if old = id then [] else [.noted (.signalingIdReassigned old id)]

/-- What a call reports of itself when it goes away. -/
def farewell : Trace :=
  (if call.isOver then [] else call.reporter.happenings (.notEndedAtTeardown call.phase)) ++
    if call.registered = call.deregistered then []
    else call.reporter.happenings (.registrationMismatch call.registered call.deregistered)

@[simp] theorem acceptances_farewell : acceptances call.farewell = [] := by
  unfold farewell
  split <;> split <;> simp

/-- A call that goes away before it is over says so. -/
theorem mem_defects_farewell {call : Call} (h : call.isOver = false) :
    .notEndedAtTeardown call.phase ∈ defects call.farewell := by
  simp [farewell, h]

/-- Another signaling identifier is worth a log line at most. -/
theorem reassignment_eq (id : UInt64) :
    call.reassignment id = [] ∨ ∃ n, call.reassignment id = [.noted n] := by
  unfold reassignment
  split
  · exact Or.inl rfl
  · split
    · exact Or.inl rfl
    · exact Or.inr ⟨_, rfl⟩

end Call

/-! ### Outcomes -/

/-- What the result of a turn leaves behind. -/
def Outcome.ofResult : EStateM.Result Stop Progress Reply → Outcome
  | .ok reply p => ⟨p.scene, p.trace, reply⟩
  | .error (.refused e) p => ⟨p.scene, p.trace, .refused e⟩
  | .error (.aborted d) p => ⟨p.scene, p.trace, .aborted d⟩

theorem Scene.play_eq (scene : Scene) (turn : Turn Reply) :
    scene.play turn = Outcome.ofResult (turn.run ⟨scene, []⟩) := by
  unfold Scene.play Outcome.ofResult
  rfl

/-- The outcome of an operation that has come this far and ends here. -/
def Progress.outcome (p : Progress) (reply : Reply) : Outcome :=
  ⟨p.scene, p.trace, reply⟩

section Outcome

variable (p : Progress) (reply : Reply)

@[simp] theorem Progress.outcome_scene : (p.outcome reply).scene = p.scene := rfl

@[simp] theorem Progress.outcome_trace : (p.outcome reply).trace = p.trace := rfl

@[simp] theorem Progress.outcome_reply : (p.outcome reply).reply = reply := rfl

end Outcome

namespace Scene

/-- A scene in which an operation has checked its context, and no more. -/
def checked (scene : Scene) (thread : Thread) (operation : String) : Progress :=
  ⟨scene, scene.call.strayed thread operation⟩

/-- The outcome of an operation that is given up because of the thread it is called on. -/
def giveUp (scene : Scene) (thread : Thread) (operation : String) : Outcome :=
  (scene.checked thread operation).outcome
    (.aborted (.offContext operation scene.call.owner thread))

section Checked

variable (scene : Scene) (thread : Thread) (operation : String)

@[simp] theorem checked_scene : (scene.checked thread operation).scene = scene := rfl

@[simp] theorem checked_trace :
    (scene.checked thread operation).trace = scene.call.strayed thread operation := rfl

end Checked

end Scene

/-! ### Acceptances that run -/

namespace Acceptance

/-- The phase that an acceptance leads to once it has run. -/
def target (a : Acceptance) : Phase :=
  match a.failure with
  | none => .connected
  | some _ => .localFailure

/-- How the operation that runs an acceptance ends. -/
def verdict (a : Acceptance) : Reply :=
  match a.failure with
  | none => .done
  | some e => .refused e

/-- What is logged of an acceptance that has run. -/
def lament (a : Acceptance) (call : CallLabel) : Trace :=
  match a.failure with
  | none => []
  | some e => [.noted (.acceptanceFailed call e)]

theorem target_ne (a : Acceptance) {new : Phase} (hconnected : new ≠ .connected)
    (hfailed : new ≠ .localFailure) : a.target ≠ new := by
  unfold target
  cases a.failure with
  | none => exact hconnected.symm
  | some e => exact hfailed.symm

theorem target_ne_accepting (a : Acceptance) : a.target ≠ .accepting :=
  a.target_ne (by simp) (by simp)

end Acceptance

namespace Progress

variable (p : Progress)

theorem clear_of_none {p : Progress} (h : p.scene.call.deferred = none) :
    p.mapCall ({ · with deferred := none }) = p := by
  unfold mapCall
  rw [← h]

/-- Queues an acceptance, and reports the one it replaces. -/
def enqueue (a : Acceptance) (p : Progress) : Progress :=
  let queued := p.mapCall ({ · with deferred := some a })
  if p.scene.call.deferred.isSome then
    queued.add (p.scene.call.reporter.happenings .deferredReplaced)
  else queued

@[simp] theorem enqueue_call (a : Acceptance) :
    (p.enqueue a).scene.call = { p.scene.call with deferred := some a } := by
  unfold enqueue
  split <;> rfl

@[simp] theorem acceptances_enqueue (a : Acceptance) :
    acceptances (p.enqueue a).trace = acceptances p.trace := by
  unfold enqueue
  split <;> simp

@[simp] theorem deliveries_enqueue (a : Acceptance) :
    deliveries (p.enqueue a).trace = deliveries p.trace := by
  unfold enqueue
  split <;> simp

/-- An acceptance that another replaces is reported. -/
theorem mem_defects_enqueue {p : Progress} (h : p.scene.call.deferred.isSome = true)
    (a : Acceptance) : .deferredReplaced ∈ defects (p.enqueue a).trace := by
  unfold enqueue
  rw [if_pos h]
  simp

/-- Runs an acceptance, and logs why if it fails. -/
def carryOut (a : Acceptance) (p : Progress) : Progress :=
  (p.runAcceptance a).add (a.lament p.scene.call.label)

@[simp] theorem carryOut_call (a : Acceptance) :
    (p.carryOut a).scene.call = p.scene.call := rfl

@[simp] theorem acceptances_carryOut (a : Acceptance) :
    acceptances (p.carryOut a).trace = acceptances p.trace ++ [a] := by
  unfold carryOut Acceptance.lament
  cases a.failure <;> simp

@[simp] theorem deliveries_carryOut (a : Acceptance) :
    deliveries (p.carryOut a).trace = deliveries p.trace := by
  unfold carryOut Acceptance.lament
  cases a.failure <;> simp

/-- Runs an acceptance, checks the context, and moves the call where the acceptance leads. -/
def conclude (thread : Thread) (a : Acceptance) (p : Progress) : Outcome :=
  let checked := (p.carryOut a).add (p.scene.call.strayed thread "set_state")
  if p.scene.call.bars thread "set_state" then
    checked.outcome (.aborted (.offContext "set_state" p.scene.call.owner thread))
  else ((checked.enter a.target).notify (.phase a.target)).outcome a.verdict

/-- Whoever concludes off the context may be given up once the acceptance has run. -/
theorem conclude_of_barred {p : Progress} {thread : Thread}
    (h : p.scene.call.bars thread "set_state" = true) (a : Acceptance) :
    p.conclude thread a =
      ((p.carryOut a).add (p.scene.call.strayed thread "set_state")).outcome
        (.aborted (.offContext "set_state" p.scene.call.owner thread)) :=
  if_pos h

end Progress

/-! ### How the programs run -/

namespace Turn

theorem run_checkContext (thread : Thread) (operation : String) (p : Progress) :
    (checkContext thread operation).run p =
      let checked := p.add (p.scene.call.strayed thread operation)
      if p.scene.call.bars thread operation then
        .error (.aborted (.offContext operation p.scene.call.owner thread)) checked
      else .ok () checked := by
  by_cases h : thread = p.scene.call.owner
  · subst h
    rw [run_checkContext_owner, Call.bars_eq_false (Or.inl rfl)]
    simp [Call.strayed, Progress.add]
  · rw [run_checkContext_of_ne operation h, run_report]
    simp [Call.strayed, Call.bars, h]

theorem run_queue_eq (a : Acceptance) (p : Progress) :
    (queue a).run p = .ok () (p.enqueue a) :=
  run_queue a p

theorem run_setPhase (thread : Thread) (new : Phase) (p : Progress) :
    (setPhase thread new).run p =
      let checked := p.add (p.scene.call.strayed thread "set_state")
      if p.scene.call.bars thread "set_state" then
        .error (.aborted (.offContext "set_state" p.scene.call.owner thread)) checked
      else if Phase.allows p.scene.call.enforced p.scene.call.phase new then
        .ok () ((checked.enter new).notify (.phase new))
      else
        .error (.refused (.illegalTransition p.scene.call.phase new))
          (checked.add (p.scene.call.reporter.happenings
            (.illegalTransition p.scene.call.phase new))) := by
  simp only [setPhase, EStateM.run_bind, run_checkContext]
  cases hb : p.scene.call.bars thread "set_state" with
  | true => rfl
  | false =>
      by_cases ha : Phase.allows p.scene.call.enforced p.scene.call.phase new = true
      · simp [run_move, ha]
      · simp [run_move, ha]

theorem run_awaitMedia (thread : Thread) (a : Acceptance) (p : Progress) :
    (awaitMedia thread a).run p =
      let checked := p.add (p.scene.call.strayed thread "begin_accepting")
      if p.scene.call.bars thread "begin_accepting" then
        .error (.aborted (.offContext "begin_accepting" p.scene.call.owner thread)) checked
      else if Phase.allows p.scene.call.enforced p.scene.call.phase .accepting then
        .ok () (((checked.enter .accepting).enqueue a).notify (.phase .accepting))
      else
        .error (.refused (.illegalTransition p.scene.call.phase .accepting))
          (checked.add (p.scene.call.reporter.happenings
            (.illegalTransition p.scene.call.phase .accepting))) := by
  simp only [awaitMedia, EStateM.run_bind, run_checkContext]
  cases hb : p.scene.call.bars thread "begin_accepting" with
  | true => rfl
  | false =>
      by_cases ha : Phase.allows p.scene.call.enforced p.scene.call.phase .accepting = true
      · simp [run_move, run_queue_eq, ha]
      · simp [run_move, ha]

theorem run_handOver (thread : Thread) (p : Progress) :
    (handOver thread).run p =
      let checked := p.add (p.scene.call.strayed thread "take_deferred_acceptance")
      if p.scene.call.bars thread "take_deferred_acceptance" then
        .error (.aborted (.offContext "take_deferred_acceptance" p.scene.call.owner thread))
          checked
      else .ok p.scene.call.deferred (checked.mapCall ({ · with deferred := none })) := by
  simp only [handOver, EStateM.run_bind, run_checkContext]
  cases hb : p.scene.call.bars thread "take_deferred_acceptance" with
  | true => rfl
  | false => rfl

/-- Where the acceptance may lead, finishing comes to its conclusion. -/
theorem ofResult_finish {thread : Thread} {a : Acceptance} {p : Progress}
    (h : Phase.allows p.scene.call.enforced p.scene.call.phase a.target = true) :
    Outcome.ofResult ((do finish thread a; return .done : Turn Reply).run p) =
      p.conclude thread a := by
  unfold Acceptance.target at h
  unfold Progress.conclude Progress.carryOut Acceptance.lament Acceptance.target
    Acceptance.verdict
  cases hf : a.failure with
  | none =>
      rw [hf] at h
      simp only [finish, hf, EStateM.run_bind, run_act, run_setPhase]
      by_cases hb : p.scene.call.bars thread "set_state" = true
      · simp [hb, Progress.outcome, Outcome.ofResult, Progress.add]
      · simp [hb, h, Progress.outcome, Outcome.ofResult, Progress.add]
  | some e =>
      rw [hf] at h
      simp only [finish, hf, EStateM.run_bind, run_act, run_call, run_note, run_setPhase]
      by_cases hb : p.scene.call.bars thread "set_state" = true
      · simp [hb, Progress.outcome, Outcome.ofResult]
      · simp [hb, h, Progress.outcome, Outcome.ofResult]

end Turn

/-! ### The outcome of each operation -/

namespace Scene

variable (scene : Scene) (thread : Thread)

/-- An operation that checks its context first comes to nothing, or to the rest of it. -/
theorem perform_of_checked {op : Operation} {operation : String} {body : Turn Reply} {o : Outcome}
    (hturn : op.turn thread = Turn.checkContext thread operation >>= fun _ => body)
    (hbody : Outcome.ofResult (body.run (scene.checked thread operation)) = o) :
    scene.perform thread op =
      if scene.call.bars thread operation then scene.giveUp thread operation else o := by
  rw [perform, play_eq, hturn, EStateM.run_bind, Turn.run_checkContext]
  cases hb : scene.call.bars thread operation with
  | true => rfl
  | false => exact hbody

/-! #### Moving and queueing -/

theorem perform_setPhase (new : Phase) :
    scene.perform thread (.setPhase new) =
      if scene.call.bars thread "set_state" then scene.giveUp thread "set_state"
      else if Phase.allows scene.call.enforced scene.call.phase new then
        (((scene.checked thread "set_state").enter new).notify (.phase new)).outcome .done
      else
        ((scene.checked thread "set_state").add (scene.call.reporter.happenings
          (.illegalTransition scene.call.phase new))).outcome
            (.refused (.illegalTransition scene.call.phase new)) := by
  refine perform_of_checked scene thread (bind_assoc _ _ _) ?_
  simp only [EStateM.run_bind, Turn.run_move]
  by_cases ha : Phase.allows scene.call.enforced scene.call.phase new = true
  · simp [checked, ha, Progress.outcome, Outcome.ofResult]
  · simp [checked, ha, Progress.outcome, Outcome.ofResult]

theorem perform_awaitMedia (a : Acceptance) :
    scene.perform thread (.awaitMedia a) =
      if scene.call.bars thread "begin_accepting" then scene.giveUp thread "begin_accepting"
      else if Phase.allows scene.call.enforced scene.call.phase .accepting then
        ((((scene.checked thread "begin_accepting").enter .accepting).enqueue a).notify
          (.phase .accepting)).outcome .done
      else
        ((scene.checked thread "begin_accepting").add (scene.call.reporter.happenings
          (.illegalTransition scene.call.phase .accepting))).outcome
            (.refused (.illegalTransition scene.call.phase .accepting)) := by
  refine perform_of_checked scene thread (bind_assoc _ _ _) ?_
  simp only [EStateM.run_bind, Turn.run_move, Turn.run_queue_eq]
  by_cases ha : Phase.allows scene.call.enforced scene.call.phase .accepting = true
  · simp [checked, ha, Progress.outcome, Outcome.ofResult]
  · simp [checked, ha, Progress.outcome, Outcome.ofResult]

theorem perform_deferAcceptance (a : Acceptance) :
    scene.perform thread (.deferAcceptance a) =
      if scene.call.bars thread "set_deferred_acceptance" then
        scene.giveUp thread "set_deferred_acceptance"
      else if scene.call.phase = .accepting then
        ((scene.checked thread "set_deferred_acceptance").enqueue a).outcome .done
      else
        ((scene.checked thread "set_deferred_acceptance").add (scene.call.reporter.happenings
          (.deferredOutsideAccepting scene.call.phase))).outcome
            (.refused (.deferredOutsideAccepting scene.call.phase)) := by
  refine perform_of_checked scene thread (bind_assoc _ _ _) ?_
  have hd : (Defect.deferredOutsideAccepting scene.call.phase).severity = .anomaly := rfl
  simp only [EStateM.run_bind, Turn.run_call]
  by_cases hp : scene.call.phase = .accepting
  · simp [checked, hp, Turn.run_queue_eq, Progress.outcome, Outcome.ofResult]
  · simp [checked, hp, Turn.run_report_anomaly hd, Progress.outcome, Outcome.ofResult]

theorem perform_handOver :
    scene.perform thread .handOver =
      if scene.call.bars thread "take_deferred_acceptance" then
        scene.giveUp thread "take_deferred_acceptance"
      else
        ((scene.checked thread "take_deferred_acceptance").mapCall
          ({ · with deferred := none })).outcome (.handed scene.call.deferred) :=
  perform_of_checked scene thread (bind_assoc _ _ _) rfl

/-! #### Answering -/

/-- An acceptance runs only where it may lead to either of its ends. -/
theorem allows_target {enforced : Bool} {old : Phase}
    (h : old = .ringingReadyToAnswer ∨ old = .accepting) (a : Acceptance) :
    Phase.allows enforced old a.target = true := by
  unfold Acceptance.target
  rcases h with rfl | rfl <;> cases enforced <;> cases a.failure <;> rfl

theorem perform_answer_of_ready {scene : Scene} (h : scene.call.phase = .ringingReadyToAnswer)
    (thread : Thread) (a : Acceptance) :
    scene.perform thread (.answer a) = Progress.conclude thread a ⟨scene, []⟩ := by
  rw [← Turn.ofResult_finish (by rw [h]; exact allows_target (Or.inl rfl) a), perform, play_eq]
  simp only [Operation.turn, Turn.answer, EStateM.run_bind, Turn.run_call, h]

theorem perform_answer_of_anticipatory {scene : Scene}
    (h : scene.call.phase = .ringingAnticipatory) (thread : Thread) (a : Acceptance) :
    scene.perform thread (.answer a) =
      let checked : Progress :=
        ⟨scene, .noted (.acceptanceDeferred scene.call.label) ::
          scene.call.strayed thread "begin_accepting"⟩
      if scene.call.bars thread "begin_accepting" then
        checked.outcome (.aborted (.offContext "begin_accepting" scene.call.owner thread))
      else
        (((checked.enter .accepting).enqueue a).notify (.phase .accepting)).outcome .done := by
  have ha : Phase.allows scene.call.enforced scene.call.phase .accepting = true := by
    rw [h]
    cases scene.call.enforced <;> rfl
  rw [perform, play_eq]
  simp only [Operation.turn, Turn.answer, EStateM.run_bind, Turn.run_call, h, Turn.run_note,
    Turn.run_awaitMedia]
  by_cases hb : scene.call.bars thread "begin_accepting" = true
  · simp [hb, Progress.add, Progress.outcome, Outcome.ofResult]
  · simp [hb, ha, Progress.add, Progress.outcome, Outcome.ofResult]

theorem perform_answer_of_not_ringing {scene : Scene}
    (hready : scene.call.phase ≠ .ringingReadyToAnswer)
    (hanticipatory : scene.call.phase ≠ .ringingAnticipatory) (thread : Thread)
    (a : Acceptance) :
    scene.perform thread (.answer a) =
      Progress.outcome ⟨scene, [.noted (.answerIgnored scene.call.phase scene.call.label)]⟩
        (.refused (.notRinging scene.call.phase)) := by
  rw [perform, play_eq]
  simp only [Operation.turn, Turn.answer, EStateM.run_bind, Turn.run_call]
  rfl

/-- A call that nobody has answered is ready to be. -/
theorem perform_engineReady_of_unanswered {scene : Scene}
    (h : scene.call.phase = .answering ∨ scene.call.phase = .ringingAnticipatory)
    (thread : Thread) :
    scene.perform thread .engineReady =
      scene.perform thread (.setPhase .ringingReadyToAnswer) := by
  rw [perform, perform, play_eq, play_eq]
  simp only [Operation.turn, Turn.engineReady, EStateM.run_bind, Turn.run_call]
  rcases h with h | h <;> rw [h]

/-- An answered call takes out what was queued, and concludes with it. -/
theorem perform_engineReady_of_queued {scene : Scene} {a : Acceptance}
    (hphase : scene.call.phase = .accepting) (hdeferred : scene.call.deferred = some a)
    (thread : Thread) :
    scene.perform thread .engineReady =
      if scene.call.bars thread "take_deferred_acceptance" then
        scene.giveUp thread "take_deferred_acceptance"
      else
        ((scene.checked thread "take_deferred_acceptance").mapCall
          ({ · with deferred := none })).conclude thread a := by
  rw [perform, play_eq]
  simp only [Operation.turn, Turn.engineReady, EStateM.run_bind, Turn.run_call, hphase,
    Turn.run_handOver, hdeferred]
  cases hb : scene.call.bars thread "take_deferred_acceptance" with
  | true => rfl
  | false =>
      rw [← Turn.ofResult_finish (allows_target (Or.inr hphase) a)]
      simp only [EStateM.run_bind]
      rfl

/-- An answered call with nothing queued fails, unless the second check is the end of it. -/
theorem perform_engineReady_of_nothing_queued {scene : Scene}
    (hphase : scene.call.phase = .accepting) (hdeferred : scene.call.deferred = none)
    (thread : Thread) :
    scene.perform thread .engineReady =
      if scene.call.bars thread "take_deferred_acceptance" then
        scene.giveUp thread "take_deferred_acceptance"
      else
        let reported := ((scene.checked thread "take_deferred_acceptance").add
          (scene.call.reporter.happenings .acceptingWithoutDeferred)).add
            (scene.call.strayed thread "set_state")
        if scene.call.bars thread "set_state" then
          reported.outcome (.aborted (.offContext "set_state" scene.call.owner thread))
        else
          ((reported.enter .localFailure).notify (.phase .localFailure)).outcome
            (.refused .noDeferredAcceptance) := by
  have hd : Defect.acceptingWithoutDeferred.severity = .anomaly := rfl
  have ha : Phase.allows scene.call.enforced .accepting .localFailure = true := by
    cases scene.call.enforced <;> rfl
  rw [perform, play_eq]
  simp only [Operation.turn, Turn.engineReady, EStateM.run_bind, Turn.run_call, hphase,
    Turn.run_handOver, hdeferred]
  cases hb : scene.call.bars thread "take_deferred_acceptance" with
  | true => rfl
  | false =>
      have hkept : Progress.mapCall ({ · with deferred := none })
          (Progress.add (scene.call.strayed thread "take_deferred_acceptance") ⟨scene, []⟩) =
          scene.checked thread "take_deferred_acceptance" :=
        Progress.clear_of_none hdeferred
      simp only [Bool.false_eq_true, ↓reduceIte, EStateM.run_bind, hkept,
        Turn.run_report_anomaly hd, Turn.run_setPhase]
      by_cases hstate : scene.call.bars thread "set_state" = true
      · simp [hstate, checked, Progress.outcome, Outcome.ofResult]
      · simp [hstate, ha, hphase, checked, Progress.outcome, Outcome.ofResult]

theorem perform_engineReady_of_else {scene : Scene}
    (hanswering : scene.call.phase ≠ .answering)
    (hanticipatory : scene.call.phase ≠ .ringingAnticipatory)
    (haccepting : scene.call.phase ≠ .accepting) (thread : Thread) :
    scene.perform thread .engineReady =
      Progress.outcome ⟨scene, [.noted (.engineReadyIgnored scene.call.phase)]⟩ .done := by
  rw [perform, play_eq]
  simp only [Operation.turn, Turn.engineReady, EStateM.run_bind, Turn.run_call]
  rfl

/-! #### What leaves answering alone -/

theorem perform_linkRecord (record : Nat) :
    scene.perform thread (.linkRecord record) =
      if scene.call.bars thread "set_call_record" then scene.giveUp thread "set_call_record"
      else if scene.call.record.isSome then
        ((scene.checked thread "set_call_record").add (scene.call.reporter.happenings
          .recordRelinked)).outcome (.refused .recordAlreadyLinked)
      else
        (((scene.checked thread "set_call_record").mapCall
          ({ · with record := some record })).promoteRecord).outcome .done := by
  refine perform_of_checked scene thread (bind_assoc _ _ _) ?_
  have hd : Defect.recordRelinked.severity = .anomaly := rfl
  simp only [EStateM.run_bind, Turn.run_call]
  by_cases hr : scene.call.record.isSome = true
  · simp [checked, hr, Turn.run_report_anomaly hd, Progress.outcome, Outcome.ofResult]
  · simp [checked, hr, Progress.outcome, Outcome.ofResult]

theorem perform_assignSignalingId (id : UInt64) :
    scene.perform thread (.assignSignalingId id) =
      if scene.call.bars thread "set_signaling_id" then scene.giveUp thread "set_signaling_id"
      else
        let assigned := ((scene.checked thread "set_signaling_id").add
          (scene.call.reassignment id)).mapCall ({ · with signalingId := some id })
        (assigned.add [.noted (.signalingIdSet assigned.scene.call.label)]).outcome .done := by
  refine perform_of_checked scene thread (bind_assoc _ _ _) ?_
  simp only [EStateM.run_bind, Turn.run_call, Call.reassignment, checked]
  cases hs : scene.call.signalingId with
  | none => simp [Progress.outcome, Outcome.ofResult, Progress.mapCall]
  | some old =>
      by_cases hid : old = id
      · simp [hid, Progress.outcome, Outcome.ofResult, Progress.mapCall]
      · simp [hid, Progress.outcome, Outcome.ofResult]

theorem perform_setSwitch (switch : Switch) (on : Bool) :
    scene.perform thread (.setSwitch switch on) =
      if scene.call.bars thread switch.operation then scene.giveUp thread switch.operation
      else
        ((((scene.checked thread switch.operation).mapCall (switch.set on ·)).add
          [.noted (switch.note (switch.isOn scene.call) on)]).notify
            (switch.change on)).outcome .done :=
  perform_of_checked scene thread (bind_assoc _ _ _) rfl

theorem perform_setRoute (route : Route) :
    scene.perform thread (.setRoute route) =
      if scene.call.bars thread "set_network_route" then scene.giveUp thread "set_network_route"
      else
        (((scene.checked thread "set_network_route").mapCall
          ({ · with route := route })).add [.noted (.routeSet route)]).outcome .done :=
  perform_of_checked scene thread (bind_assoc _ _ _) rfl

theorem perform_attach (listener : Nat) :
    scene.perform thread (.attach listener) =
      if scene.call.bars thread "set_delegate" then scene.giveUp thread "set_delegate"
      else
        ((scene.checked thread "set_delegate").mapCall
          ({ · with listener := some listener })).outcome .done :=
  perform_of_checked scene thread (bind_assoc _ _ _) rfl

theorem perform_detach :
    scene.perform thread .detach =
      if scene.call.bars thread "clear_delegate" then scene.giveUp thread "clear_delegate"
      else
        ((scene.checked thread "clear_delegate").mapCall
          ({ · with listener := none })).outcome .done :=
  perform_of_checked scene thread (bind_assoc _ _ _) rfl

theorem perform_register :
    scene.perform thread .register =
      if scene.call.bars thread "mark_reported_to_system" then
        scene.giveUp thread "mark_reported_to_system"
      else
        ((scene.checked thread "mark_reported_to_system").mapCall
          ({ · with registered := true })).outcome .done :=
  perform_of_checked scene thread (bind_assoc _ _ _) rfl

theorem perform_deregister :
    scene.perform thread .deregister =
      if scene.call.bars thread "mark_removed_from_system" then
        scene.giveUp thread "mark_removed_from_system"
      else if scene.call.registered then
        ((scene.checked thread "mark_removed_from_system").mapCall
          ({ · with deregistered := true })).outcome .done
      else
        ((scene.checked thread "mark_removed_from_system").add (scene.call.reporter.happenings
          .deregisteredBeforeRegistered)).outcome .done := by
  refine perform_of_checked scene thread (bind_assoc _ _ _) ?_
  have hd : Defect.deregisteredBeforeRegistered.severity = .anomaly := rfl
  simp only [EStateM.run_bind, Turn.run_call]
  by_cases hr : scene.call.registered = true
  · simp [checked, hr, Progress.outcome, Outcome.ofResult]
  · simp [checked, hr, Turn.run_report_anomaly hd, Progress.outcome, Outcome.ofResult]

/-! #### Going away -/

/-- A call that goes away reports what is wrong with it, and no more. -/
theorem close_eq :
    scene.close =
      Progress.outcome ⟨scene, .noted (.dropping scene.call.label) :: scene.call.farewell⟩
        .done := by
  have hlive : (Defect.notEndedAtTeardown scene.call.phase).severity = .anomaly := rfl
  have hflags : (Defect.registrationMismatch scene.call.registered
      scene.call.deregistered).severity = .anomaly := rfl
  rw [close, play_eq]
  simp only [Turn.tearDown, EStateM.run_bind, Turn.run_call, Turn.run_note, Call.farewell]
  cases hover : scene.call.isOver with
  | true =>
      by_cases hr : scene.call.registered = scene.call.deregistered
      · simp [hr, Progress.outcome, Outcome.ofResult, Progress.add]
      · simp [hr, Turn.run_report_anomaly hflags, Progress.outcome, Outcome.ofResult,
          Progress.add]
  | false =>
      by_cases hr : scene.call.registered = scene.call.deregistered
      · simp [hr, Turn.run_report_anomaly hlive, Progress.outcome, Outcome.ofResult,
          Progress.add]
      · simp [hr, Turn.run_report_anomaly hlive, Turn.run_report_anomaly hflags,
          Progress.outcome, Outcome.ofResult, Progress.add]

end Scene

end CallLifecycle
