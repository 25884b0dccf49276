/-
The check that is the end of an operation.

A reporter may give up on an operation that is called off the context.  A strict one does so at the
operation's first check, and the first check comes before anything is done: only `answer`, for a
call that is ready to be answered, has by then run its acceptance, and nothing else.  So an
operation that is given up there leaves the call, the records and the listeners as it found them.

A reporter that is choosier may let the first check pass.  One operation makes a second one:
`engineReady` for an answered call, which has by then taken out what was queued and run it.

`Scene.Ends` says of every operation which of these it comes to, or that it passes all its checks
and is not given up at all.
-/
import CallLifecycle.Proofs.Answering
import CallLifecycle.Proofs.Asking
import CallLifecycle.Proofs.Findings

namespace CallLifecycle

open Trace

/-! ### The first check -/

/-- Whether an operation checks its context in a call of a phase. -/
def Operation.checksIn (found : Phase) : Operation → Bool
  | answer _ => found = .ringingReadyToAnswer || found = .ringingAnticipatory
  | engineReady => found = .answering || found = .ringingAnticipatory || found = .accepting
  | _ => true

/-- The acceptance that an operation runs before its first check, in a call of a phase. -/
def Operation.runsFirst? (found : Phase) : Operation → Option Acceptance
  | answer a => if found = .ringingReadyToAnswer then some a else none
  | _ => none

/-- What an operation comes to that is given up at its first check. -/
structure Scene.GivesUp (scene : Scene) (thread : Thread) (op : Operation) (o : Outcome) :
    Prop where
  /-- The check is all that is reported, and why the operation is given up. -/
  reply : ∃ operation, (op.checks scene.call).head? = some operation ∧
    o.reply = .aborted (.offContext operation scene.call.owner thread) ∧
    defects o.trace = [.offContext operation scene.call.owner thread]
  call : o.scene.call = scene.call
  around : o.scene.around =
    scene.around.applyAll ((op.runsFirst? scene.call.phase).toList.flatMap (·.effects))
  ran : acceptances o.trace = (op.runsFirst? scene.call.phase).toList
  told : deliveries o.trace = []
  asked : requests o.trace = []

/-- What `engineReady` comes to that is given up at its second check. -/
structure Scene.Strands (scene : Scene) (thread : Thread) (op : Operation) (o : Outcome) :
    Prop where
  op : op = .engineReady
  phase : scene.call.phase = .accepting
  /-- The first check was passed. -/
  passed : scene.call.bars thread "take_deferred_acceptance" = false
  reply : o.reply = .aborted (.offContext "set_state" scene.call.owner thread)
  /-- What was queued is taken out, and has run. -/
  call : o.scene.call = { scene.call with deferred := none }
  around : o.scene.around =
    scene.around.applyAll (scene.call.deferred.toList.flatMap (·.effects))
  ran : acceptances o.trace = scene.call.deferred.toList
  told : deliveries o.trace = []
  asked : requests o.trace = []

/-- How an operation ends. -/
inductive Scene.Ends (scene : Scene) (thread : Thread) (op : Operation) (o : Outcome) : Prop
  /-- The first check is the end of it. -/
  | givenUp {operation : String} (first : (op.checks scene.call).head? = some operation)
      (bars : scene.call.bars thread operation = true) (givesUp : scene.GivesUp thread op o)
  /-- The second check is the end of it. -/
  | stranded (bars : scene.call.bars thread "set_state" = true)
      (strands : scene.Strands thread op o)
  /-- Every check is passed. -/
  | done (passes : scene.call.cutsShort thread op = false) (lasts : o.reply.isAborted = false)

theorem Scene.GivesUp.around_ran {scene : Scene} {thread : Thread} {op : Operation} {o : Outcome}
    (h : scene.GivesUp thread op o) : o.scene.around = scene.around.ran o.trace := by
  rw [h.around, Surroundings.ran, h.ran]

theorem Scene.Strands.around_ran {scene : Scene} {thread : Thread} {op : Operation} {o : Outcome}
    (h : scene.Strands thread op o) : o.scene.around = scene.around.ran o.trace := by
  rw [h.around, Surroundings.ran, h.ran]

@[simp] theorem Acceptance.isAborted_verdict (a : Acceptance) : a.verdict.isAborted = false := by
  unfold verdict
  cases a.failure <;> rfl

theorem Call.strayed_of_bars {call : Call} {thread : Thread} {operation : String}
    (h : call.bars thread operation = true) :
    call.strayed thread operation =
      call.reporter.happenings (.offContext operation call.owner thread) := by
  have hne : thread ≠ call.owner := by
    rintro rfl
    rw [bars_eq_false (Or.inl rfl)] at h
    cases h
  exact if_neg hne

namespace Scene

variable {scene : Scene} {thread : Thread} {op : Operation}

/-- An operation that is given up at its first check has done nothing, but what `answer` has run. -/
theorem ends_of_barred {operation : String} {rest : List String} {p : Progress}
    (hchecks : op.checks scene.call = operation :: rest)
    (hb : scene.call.bars thread operation = true) (hcall : p.scene.call = scene.call)
    (haround : p.scene.around =
      scene.around.applyAll ((op.runsFirst? scene.call.phase).toList.flatMap (·.effects)))
    (hran : acceptances p.trace = (op.runsFirst? scene.call.phase).toList)
    (hquiet : defects p.trace = [] ∧ deliveries p.trace = [] ∧ requests p.trace = []) :
    scene.Ends thread op
      ((p.add (scene.call.strayed thread operation)).outcome
        (.aborted (.offContext operation scene.call.owner thread))) := by
  obtain ⟨hdefects, htold, hasked⟩ := hquiet
  have hhead : (op.checks scene.call).head? = some operation := by
    rw [hchecks]
    rfl
  refine .givenUp hhead hb ⟨⟨operation, hhead, rfl, ?_⟩, hcall, haround, ?_, ?_, ?_⟩
  · simp [Call.strayed_of_bars hb, hdefects]
  · simp [hran]
  · simp [htold]
  · simp [hasked]

/-- An operation that makes a check first is given up there with nothing done, or goes on. -/
theorem ends_of_checked {operation : String} {rest : List String} {o : Outcome}
    (hchecks : op.checks scene.call = operation :: rest)
    (hfirst : op.runsFirst? scene.call.phase = none)
    (hdone : scene.call.bars thread operation = false → scene.Ends thread op o) :
    scene.Ends thread op
      (if scene.call.bars thread operation then scene.giveUp thread operation else o) := by
  cases hb : scene.call.bars thread operation with
  | true =>
      refine ends_of_barred (p := ⟨scene, []⟩) hchecks hb rfl ?_ ?_ ⟨rfl, rfl, rfl⟩
      · rw [hfirst]
        rfl
      · rw [hfirst]
        rfl
  | false => exact hdone hb

/-- What passes its only check is not given up. -/
theorem ends_of_passed {operation : String} {o : Outcome}
    (hchecks : op.checks scene.call = [operation])
    (hb : scene.call.bars thread operation = false) (h : o.reply.isAborted = false) :
    scene.Ends thread op o :=
  .done (by simp [Call.cutsShort, hchecks, hb]) h

/-- An operation that makes one check is given up there or nowhere. -/
theorem ends_of_one_check {operation : String} {rest : List Finding} {o : Outcome}
    (hfindings : op.findings scene.call = .check operation :: rest)
    (hrest : rest.filterMap Finding.check? = [])
    (hfirst : op.runsFirst? scene.call.phase = none) (hdone : o.reply.isAborted = false) :
    scene.Ends thread op
      (if scene.call.bars thread operation then scene.giveUp thread operation else o) := by
  have hchecks := Operation.checks_of_findings hfindings hrest
  exact ends_of_checked hchecks hfirst fun hb => ends_of_passed hchecks hb hdone

/-- Concluding gives up on nobody whom its own check lets pass. -/
theorem isAborted_conclude {p : Progress} (h : p.scene.call.bars thread "set_state" = false)
    (a : Acceptance) : (p.conclude thread a).reply.isAborted = false := by
  unfold Progress.conclude
  simp [h]

theorem ends_answer (a : Acceptance) :
    scene.Ends thread (.answer a) (scene.perform thread (.answer a)) := by
  by_cases hready : scene.call.phase = .ringingReadyToAnswer
  · have hchecks := Operation.checks_of_findings
      (Operation.findings_answer_of_ready hready a) rfl
    have hfirst : Operation.runsFirst? scene.call.phase (.answer a) = some a := if_pos hready
    rw [perform_answer_of_ready hready]
    cases hb : scene.call.bars thread "set_state" with
    | true =>
        rw [Progress.conclude_of_barred hb]
        refine ends_of_barred (p := Progress.carryOut a ⟨scene, []⟩) hchecks hb rfl ?_ ?_ ?_
        · rw [hfirst, Option.toList_some, List.flatMap_singleton]
          rfl
        · simp [hfirst]
        · simp
    | false => exact ends_of_passed hchecks hb (isAborted_conclude hb a)
  · by_cases hanticipatory : scene.call.phase = .ringingAnticipatory
    · have hchecks := Operation.checks_answer_of_anticipatory hanticipatory a
      have hfirst : Operation.runsFirst? scene.call.phase (.answer a) = none := if_neg hready
      rw [perform_answer_of_anticipatory hanticipatory]
      cases hb : scene.call.bars thread "begin_accepting" with
      | true =>
          refine ends_of_barred
            (p := Progress.add [.noted (.acceptanceDeferred scene.call.label)] ⟨scene, []⟩)
            hchecks hb rfl ?_ ?_ ⟨rfl, rfl, rfl⟩
          · rw [hfirst]
            rfl
          · rw [hfirst]
            rfl
      | false => exact ends_of_passed hchecks hb rfl
    · have hchecks : Operation.checks scene.call (.answer a) = [] := by
        rw [Operation.checks, Operation.findings_answer_of_not_ringing hready hanticipatory]
        rfl
      rw [perform_answer_of_not_ringing hready hanticipatory]
      exact .done (by rw [Call.cutsShort, hchecks]; rfl) rfl

theorem ends_setPhase (new : Phase) :
    scene.Ends thread (.setPhase new) (scene.perform thread (.setPhase new)) := by
  rw [perform_setPhase]
  refine ends_of_one_check rfl ?_ rfl ?_
  · split <;> rfl
  · split <;> rfl

theorem ends_engineReady :
    scene.Ends thread .engineReady (scene.perform thread .engineReady) := by
  by_cases hunanswered : scene.call.phase = .answering ∨ scene.call.phase = .ringingAnticipatory
  · have hfindings := Operation.findings_engineReady_of_unanswered hunanswered
    rw [perform_engineReady_of_unanswered hunanswered, perform_setPhase]
    refine ends_of_one_check hfindings rfl rfl ?_
    split <;> rfl
  · by_cases hphase : scene.call.phase = .accepting
    · have hchecks := Operation.checks_engineReady hphase
      have hpasses : scene.call.bars thread "take_deferred_acceptance" = false →
          ¬ scene.call.bars thread "set_state" = true →
            scene.call.cutsShort thread .engineReady = false := by
        intro hpassed hb
        simp [Call.cutsShort, hchecks, hpassed, hb]
      cases hdeferred : scene.call.deferred with
      | some a =>
          rw [perform_engineReady_of_queued hphase hdeferred]
          refine ends_of_checked hchecks rfl fun hpassed => ?_
          by_cases hb : scene.call.bars thread "set_state" = true
          · rw [Progress.conclude_of_barred (by exact hb)]
            refine .stranded hb ⟨rfl, hphase, hpassed, rfl, rfl, ?_, ?_, by simp, by simp⟩
            · rw [hdeferred, Option.toList_some, List.flatMap_singleton]
              rfl
            · simp [hdeferred]
          · exact .done (hpasses hpassed hb) (isAborted_conclude (Bool.eq_false_iff.mpr hb) a)
      | none =>
          rw [perform_engineReady_of_nothing_queued hphase hdeferred]
          refine ends_of_checked hchecks rfl fun hpassed => ?_
          by_cases hb : scene.call.bars thread "set_state" = true
          · rw [if_pos hb]
            refine .stranded hb ⟨rfl, hphase, hpassed, rfl, ?_, ?_, ?_, by simp, by simp⟩
            · rw [← hdeferred]
              rfl
            · rw [hdeferred]
              rfl
            · simp [hdeferred]
          · rw [if_neg hb]
            exact .done (hpasses hpassed hb) rfl
    · have hchecks : Operation.checks scene.call .engineReady = [] := by
        rw [Operation.checks, Operation.findings_engineReady_of_else hunanswered hphase]
        rfl
      rw [not_or] at hunanswered
      rw [perform_engineReady_of_else hunanswered.1 hunanswered.2 hphase]
      exact .done (by rw [Call.cutsShort, hchecks]; rfl) rfl

variable (scene thread op) in
/-- **An operation is given up at its first check, or at its second, or not at all.** -/
theorem perform_ends : scene.Ends thread op (scene.perform thread op) := by
  cases op with
  | setPhase new => exact ends_setPhase new
  | awaitMedia a =>
      rw [perform_awaitMedia]
      refine ends_of_one_check rfl ?_ rfl ?_
      · split
        · exact scene.call.checks_replacing
        · rfl
      · split <;> rfl
  | deferAcceptance a =>
      rw [perform_deferAcceptance]
      refine ends_of_one_check rfl ?_ rfl ?_
      · split
        · exact scene.call.checks_replacing
        · rfl
      · split <;> rfl
  | handOver =>
      rw [perform_handOver]
      exact ends_of_one_check rfl rfl rfl rfl
  | answer a => exact ends_answer a
  | engineReady => exact ends_engineReady
  | linkRecord record =>
      rw [perform_linkRecord]
      refine ends_of_one_check rfl ?_ rfl ?_
      · split <;> rfl
      · split <;> rfl
  | assignSignalingId id =>
      rw [perform_assignSignalingId]
      exact ends_of_one_check rfl rfl rfl rfl
  | setSwitch switch on =>
      rw [perform_setSwitch]
      exact ends_of_one_check rfl rfl rfl rfl
  | setRoute route =>
      rw [perform_setRoute]
      exact ends_of_one_check rfl rfl rfl rfl
  | attach listener =>
      rw [perform_attach]
      exact ends_of_one_check rfl rfl rfl rfl
  | detach =>
      rw [perform_detach]
      exact ends_of_one_check rfl rfl rfl rfl
  | register =>
      rw [perform_register]
      exact ends_of_one_check rfl rfl rfl rfl
  | deregister =>
      rw [perform_deregister]
      refine ends_of_one_check rfl ?_ rfl ?_
      · split <;> rfl
      · split <;> rfl

/-- Who may use a call off the context but not move it strands an answered call. -/
example :
    let reporter : Reporter := ⟨true, fun d => d matches .offContext "set_state" _ _⟩
    let call : Call :=
      { Call.incoming with phase := .accepting, deferred := some { name := "a" }, reporter }
    let o := Scene.perform ⟨call, ⟨[], [], []⟩⟩ 7 .engineReady
    o.reply = .aborted (.offContext "set_state" 0 7) ∧ o.scene.call.phase = .accepting ∧
      o.scene.call.deferred = none ∧ (acceptances o.trace).map (·.name) = ["a"] :=
  ⟨rfl, rfl, rfl, rfl⟩

variable (scene thread op) in
/-- **An operation is given up just if one of its checks is the end of it.** -/
theorem isAborted_perform :
    (scene.perform thread op).reply.isAborted = scene.call.cutsShort thread op := by
  cases scene.perform_ends thread op with
  | @givenUp operation first bars givesUp =>
      have hcut : scene.call.cutsShort thread op = true :=
        List.any_eq_true.mpr ⟨operation, List.mem_of_head? first, bars⟩
      obtain ⟨found, -, hreply, -⟩ := givesUp.reply
      rw [hreply, hcut]
      rfl
  | stranded bars strands =>
      have hcut : scene.call.cutsShort thread op = true := by
        rw [Call.cutsShort, strands.op, Operation.checks_engineReady strands.phase]
        simp [bars]
      rw [strands.reply, hcut]
      rfl
  | done passes lasts => rw [passes, lasts]

/-- What is given up is given up at the first check or at the second. -/
theorem givesUp_or_strands (h : (scene.perform thread op).reply.isAborted = true) :
    scene.GivesUp thread op (scene.perform thread op) ∨
      scene.Strands thread op (scene.perform thread op) := by
  cases scene.perform_ends thread op with
  | givenUp _ _ givesUp => exact Or.inl givesUp
  | stranded _ strands => exact Or.inr strands
  | done _ lasts =>
      rw [lasts] at h
      cases h

end Scene

/-- Whether an operation makes a check is a matter of the phase. -/
theorem Operation.isEmpty_checks (op : Operation) (call : Call) :
    (op.checks call).isEmpty = !op.checksIn call.phase := by
  cases op with
  | answer a =>
      by_cases hready : call.phase = .ringingReadyToAnswer
      · rw [checks, findings_answer_of_ready hready, checksIn, hready]
        rfl
      · by_cases hanticipatory : call.phase = .ringingAnticipatory
        · rw [checks_answer_of_anticipatory hanticipatory, checksIn, hanticipatory]
          rfl
        · rw [checks, findings_answer_of_not_ringing hready hanticipatory]
          simp [checksIn, hready, hanticipatory]
  | engineReady =>
      by_cases hunanswered : call.phase = .answering ∨ call.phase = .ringingAnticipatory
      · rw [checks_of_findings (findings_engineReady_of_unanswered hunanswered) rfl]
        rcases hunanswered with h | h <;> simp [checksIn, h]
      · by_cases hphase : call.phase = .accepting
        · rw [checks_engineReady hphase, checksIn, hphase]
          rfl
        · rw [checks, findings_engineReady_of_else hunanswered hphase]
          rw [not_or] at hunanswered
          simp [checksIn, hphase, hunanswered]
  | _ => rfl

namespace Call

variable {call : Call}

/-- A strict reporter lets no check pass on a foreign thread. -/
theorem bars_of_strict (h : call.reporter = .logging true) (thread : Thread) (operation : String) :
    call.bars thread operation = decide (thread ≠ call.owner) := by
  rw [bars, h]
  exact Bool.and_true _

/-- Under a strict reporter it is the same to make a check and to be given up, on a foreign
thread. -/
theorem cutsShort_of_strict (h : call.reporter = .logging true) (thread : Thread)
    (op : Operation) :
    call.cutsShort thread op = (decide (thread ≠ call.owner) && op.checksIn call.phase) := by
  have hbars : call.bars thread = fun _ => decide (thread ≠ call.owner) :=
    funext (bars_of_strict h thread)
  have hmakes : op.checksIn call.phase = !(op.checks call).isEmpty := by
    rw [op.isEmpty_checks, Bool.not_not]
  rw [cutsShort, hbars, hmakes]
  cases op.checks call with
  | nil => exact (Bool.and_false _).symm
  | cons first rest => simp

end Call

end CallLifecycle
