/-
Answering never gets stuck.

The acceptance that completes answering may do and report what it likes, the failures that the
rules of a call have included.  Once it has run, the call has to move to where that leads, and a
move is something that a rule can refuse.  If it were refused here, the refusal would hide the
outcome of the acceptance and the call would stay behind, neither connected nor failed.

`Scene.Concludes` says what comes instead of any acceptance that has run: the call has moved, its
listener is told, the reply is that of the acceptance, and a linked record is promoted.  An
acceptance runs nowhere but where both of its ends are allowed, under either rule, which is
`Scene.allows_target`; the rest is what is said of every operation elsewhere, put together here.
-/
import CallLifecycle.Proofs.Barring
import CallLifecycle.Proofs.Ledger
import CallLifecycle.Proofs.Promotion
import CallLifecycle.Proofs.Routing

namespace CallLifecycle

open Trace

/-- Whether an operation is one of the two sides of answering. -/
def Operation.answers : Operation → Bool
  | answer _ | engineReady => true
  | _ => false

theorem Operation.isAside_of_answers {op : Operation} (h : op.answers = true) :
    op.isAside = false := by
  cases op with
  | answer a => rfl
  | engineReady => rfl
  | _ => cases h

/-! ### The rules that were broken -/

/-- The defect that a broken rule is reported as. -/
def Finding.fault? : Finding → Option Defect
  | check _ => none
  | fault d => some d

/-- The broken rules that an operation comes upon. -/
def Operation.faults (call : Call) (op : Operation) : List Defect :=
  (op.findings call).filterMap Finding.fault?

/-- Apart from the checks, what is reported are the broken rules. -/
theorem Call.filter_not_isStray_report {call : Call} {thread : Thread} {findings : List Finding}
    (hplain : ∀ finding ∈ findings, finding.isPlain = true) :
    (call.report thread findings).filter (!·.isStray) = findings.filterMap Finding.fault? := by
  induction findings with
  | nil => rfl
  | cons finding rest ih =>
      obtain ⟨hfinding, hrest⟩ := List.forall_mem_cons.mp hplain
      cases finding with
      | check operation =>
          have hchecked :
              (defects (call.strayed thread operation)).filter (!·.isStray) = [] := by
            unfold strayed
            split
            · rfl
            · rw [defects_happenings]
              rfl
          rw [report_check, List.filter_append, hchecked, List.nil_append, ih hrest]
          rfl
      | fault d =>
          rw [report_fault, List.filter_cons_of_pos (by simpa [Finding.isPlain] using hfinding),
            ih hrest]
          rfl

namespace Scene

variable {scene : Scene} {thread : Thread} {op : Operation}

/-- **An operation that is not given up reports every rule that it found broken**, and nothing
else but where it was called. -/
theorem faults_of_lasts (h : (scene.perform thread op).reply.isAborted = false) :
    (defects (scene.perform thread op).trace).filter (!·.isStray) = op.faults scene.call := by
  have hall : defects (scene.perform thread op).trace =
      scene.call.report thread (op.findings scene.call) := by
    rw [isAborted_perform] at h
    rw [scene.perform_defects thread op, Call.reached_eq_self _ _ h]
  rw [hall, Call.filter_not_isStray_report Operation.isPlain_of_mem_findings]
  rfl

end Scene

/-! ### An acceptance that has run -/

/-- What an operation that runs an acceptance comes to: the call moves where the acceptance leads,
once and with nothing left in the queue, and its listener is told; the reply is the outcome of the
acceptance; nothing is reported but where the operation was called; and a linked record that does
as it is asked is complete once the call is connected. -/
structure Scene.Concludes (scene : Scene) (a : Acceptance) (o : Outcome) : Prop where
  ran : acceptances o.trace = [a]
  moved : moves o.trace = [(scene.call.phase, a.target)]
  phase : o.scene.call.phase = a.target
  deferred : o.scene.call.deferred = none
  reply : o.reply = a.verdict
  told : (deliveries o.trace).map (·.posted) =
    (scene.call.route? (scene.around.ran o.trace) (.phase a.target)).toList
  clean : (defects o.trace).filter (!·.isStray) = []
  promoted : a.failure = none → ∀ r rec, o.scene.call.record = some r →
    o.scene.around.records[r]? = some rec → rec.frozen = false → rec.kind.completed? = none

/-- A record that does as it is asked is complete once it was promoted. -/
theorem Record.completed?_promote {rec : Record} (h : rec.frozen = false) :
    rec.promote.kind.completed? = none := by
  rw [kind_promote h]
  cases hkind : rec.kind.completed? with
  | none => exact hkind
  | some kind => exact RecordKind.completed?_of_completed hkind

/-- Once an acceptance has run, a call that is not given up is where that leads. -/
theorem Call.Step.settles_of_ran {call : Call} {thread : Thread} {op : Operation} {o : Outcome}
    (h : call.Step thread op o) {a : Acceptance} (ha : a ∈ acceptances o.trace)
    (hlasts : o.reply.isAborted = false) :
    o.Settles a.target none [a] ∧ o.reply = a.verdict := by
  have hone := (h.runs a ha).1
  cases h with
  | aside _ leaves | giveUp _ leaves _ | idle _ leaves => simp [leaves.ran] at hone
  | move _ settles | queue _ _ settles | handOver _ settles | getReady _ settles
  | fail _ _ settles => simp [settles.ran] at hone
  | strand _ _ reply | strandQueued _ _ _ reply =>
      exact absurd reply (Outcome.not_givenUp hlasts)
  | answer _ settles _ reply | complete _ _ settles reply =>
      obtain rfl := List.singleton_inj.mp (settles.ran.symm.trans hone)
      exact ⟨settles, reply⟩

namespace Scene

variable {scene : Scene} {thread : Thread} {op : Operation}

/-- What runs an acceptance assigns the phase that this leads to. -/
theorem assigned?_of_ran {call : Call} {a : Acceptance} {reply : Reply}
    (hlasts : reply.isAborted = false)
    (hop : op = .answer a ∧ call.phase = .ringingReadyToAnswer ∨
      op = .engineReady ∧ call.phase = .accepting ∧ call.deferred = some a) :
    op.assigned? call reply = some a.target := by
  rcases hop with ⟨rfl, hphase⟩ | ⟨rfl, hphase, hdeferred⟩
  · simp [Operation.assigned?, hlasts, hphase]
  · simp [Operation.assigned?, hlasts, hphase, hdeferred]

/-- Where a record was due, it is complete now if it does as it is asked. -/
theorem Asks.completed {o : Outcome} (h : scene.Asks op o) {r : Nat} {rec : Record}
    (hdue : o.due? scene.call.phase op = some r) (hrec : o.scene.around.records[r]? = some rec)
    (hfrozen : rec.frozen = false) : rec.kind.completed? = none := by
  rw [h.records, hdue] at hrec
  cases hfound : (scene.around.ran o.trace).records[r]? with
  | none =>
      simp [Surroundings.promoted, Surroundings.modifyRecord, hfound] at hrec
  | some found =>
      rw [Surroundings.promoted_getElem? hfound, if_pos rfl] at hrec
      obtain rfl := Option.some.inj hrec
      rw [Record.frozen_promote] at hfrozen
      exact Record.completed?_promote hfrozen

/-- **An acceptance that has run is followed by the move that it leads to.** -/
theorem concludes_of_ran {a : Acceptance}
    (ha : a ∈ acceptances (scene.perform thread op).trace)
    (hlasts : (scene.perform thread op).reply.isAborted = false) :
    scene.Concludes a (scene.perform thread op) := by
  have hstep := scene.perform_step thread op
  have hannounces := scene.perform_announces thread op
  obtain ⟨hone, hop⟩ := hstep.runs a ha
  obtain ⟨settles, hreply⟩ := hstep.settles_of_ran ha hlasts
  have hassigned := assigned?_of_ran hlasts hop
  have hnews : op.news? scene.call (scene.perform thread op).reply = some (.phase a.target) := by
    rcases hop with ⟨rfl, -⟩ | ⟨rfl, -⟩
    · exact congrArg (Option.map Change.phase) hassigned
    · exact congrArg (Option.map Change.phase) hassigned
  have hnoFaults : op.faults scene.call = [] := by
    rcases hop with ⟨rfl, hphase⟩ | ⟨rfl, hphase, hdeferred⟩
    · rw [Operation.faults, Operation.findings_answer_of_ready hphase]
      rfl
    · rw [Operation.faults, Operation.findings_engineReady_of_queued hphase hdeferred]
      rfl
  have hconnects : op.connects scene.call.phase = true := by
    rcases hop with ⟨rfl, hphase⟩ | ⟨rfl, hphase, -⟩ <;> simp [Operation.connects, hphase]
  refine ⟨hone, ?_, settles.phase, settles.deferred, hreply, ?_, ?_, ?_⟩
  · rw [hannounces.moves, hassigned]
    rfl
  · have hdelivers := (hannounces.delivers
      (congrArg Fixed.id (scene.perform_fixed thread op))).1
    rw [hnews] at hdelivers
    exact hdelivers
  · rw [faults_of_lasts hlasts, hnoFaults]
  · intro hsucceeds r rec hlinked hrec hfrozen
    have hdone : (scene.perform thread op).reply = .done := by
      rw [hreply, Acceptance.verdict, hsucceeds]
    have hconnected : (scene.perform thread op).scene.call.phase = .connected := by
      rw [settles.phase, Acceptance.target, hsucceeds]
    refine (scene.perform_asks thread op).completed ?_ hrec hfrozen
    rw [Outcome.due?, if_pos ⟨hdone, Or.inl hconnects⟩, Call.connectedRecord?, if_pos hconnected,
      hlinked]

/-! ### Where answering ends -/

/-- A side of answering that finds nothing to do leaves all as it was. -/
theorem scene_of_idle (hop : op.answers = true) (hidle : op.isIdle scene.call = true) :
    (scene.perform thread op).scene = scene := by
  cases op with
  | answer a =>
      simp only [Operation.isIdle, Bool.and_eq_true, decide_eq_true_eq] at hidle
      rw [perform_answer_of_not_ringing hidle.1 hidle.2]
      rfl
  | engineReady =>
      simp only [Operation.isIdle, Bool.and_eq_true, decide_eq_true_eq] at hidle
      rw [perform_engineReady_of_else hidle.1.1 hidle.1.2 hidle.2]
      rfl
  | _ => cases hop

/-- **An engine that is ready for an answered call with nothing queued fails the call.** -/
theorem engineReady_fails (hphase : scene.call.phase = .accepting)
    (hdeferred : scene.call.deferred = none)
    (hlasts : (scene.perform thread .engineReady).reply.isAborted = false) :
    let o := scene.perform thread .engineReady
    o.reply = .refused .noDeferredAcceptance ∧ o.scene.call.phase = .localFailure ∧
      (defects o.trace).filter (!·.isStray) = [.acceptingWithoutDeferred] ∧
      moves o.trace = [(.accepting, .localFailure)] ∧
      (deliveries o.trace).map (·.posted) =
        (scene.call.route? scene.around (.phase .localFailure)).toList := by
  intro o
  have hannounces : scene.Announces .engineReady o := scene.perform_announces thread .engineReady
  have hassigned : Operation.engineReady.assigned? scene.call o.reply = some .localFailure := by
    simp [Operation.assigned?, o, hlasts, hphase, hdeferred]
  have hnews : Operation.engineReady.news? scene.call o.reply = some (.phase .localFailure) :=
    congrArg (Option.map Change.phase) hassigned
  have ho : o = _ := perform_engineReady_of_nothing_queued hphase hdeferred thread
  have hpassed : scene.call.bars thread "take_deferred_acceptance" = false ∧
      scene.call.bars thread "set_state" = false := by
    rw [isAborted_perform, Call.cutsShort, Operation.checks_engineReady hphase] at hlasts
    simpa using hlasts
  rw [hpassed.1, hpassed.2, if_neg Bool.false_ne_true, if_neg Bool.false_ne_true] at ho
  have hran : scene.around.ran o.trace = scene.around := by
    have hnone : acceptances o.trace = [] := by
      rw [ho]
      simp
    rw [Surroundings.ran, hnone]
    rfl
  refine ⟨by rw [ho]; rfl, ?_, ?_, ?_, ?_⟩
  · rw [hannounces.phase, hassigned]
    rfl
  · have hfindings := Operation.findings_engineReady_of_nothing_queued hphase hdeferred
    rw [faults_of_lasts hlasts, Operation.faults, hfindings]
    rfl
  · rw [hannounces.moves, hassigned, hphase]
    rfl
  · have hdelivers := (hannounces.delivers
      (congrArg Fixed.id (scene.perform_fixed thread .engineReady))).1
    rw [hnews, hran] at hdelivers
    exact hdelivers

end Scene

/-- Answering ends where it found nothing to do, or with an acceptance that waits, or with nothing
left to wait for. -/
theorem Call.Step.ends {call : Call} {thread : Thread} {op : Operation} {o : Outcome}
    (h : call.Step thread op o) (hop : op.answers = true) (hlasts : o.reply.isAborted = false) :
    op.isIdle call = true ∨
    (∃ a, op = .answer a ∧ o.scene.call.phase = .accepting ∧ o.scene.call.deferred = some a) ∨
    o.scene.call.phase ∈ [.ringingReadyToAnswer, .connected, .localFailure] ∧
      o.scene.call.deferred = none := by
  have htarget : ∀ a : Acceptance, a.target ∈ [.ringingReadyToAnswer, .connected,
      .localFailure] := by
    intro a
    unfold Acceptance.target
    cases a.failure <;> simp
  cases h with
  | aside isAside _ =>
      rw [Operation.isAside_of_answers hop] at isAside
      cases isAside
  | giveUp _ _ reply | strand _ _ reply | strandQueued _ _ _ reply =>
      exact absurd reply (Outcome.not_givenUp hlasts)
  | idle isIdle _ _ => exact Or.inl isIdle
  | move | handOver => cases hop
  | @queue op a _ _ queued settles =>
      refine Or.inr (Or.inl ⟨a, ?_, settles.phase, settles.deferred⟩)
      cases op with
      | answer given =>
          rw [Operation.queued?, Option.ite_none_right_eq_some] at queued
          rw [Option.some.inj queued.2]
      | engineReady => cases queued
      | _ => cases hop
  | answer _ settles | complete _ _ settles =>
      exact Or.inr (Or.inr ⟨settles.phase ▸ htarget _, settles.deferred⟩)
  | getReady _ settles | fail _ _ settles =>
      exact Or.inr (Or.inr ⟨by rw [settles.phase]; simp, settles.deferred⟩)

/-- **Answering never gets stuck between an acceptance and the call.**  The user may answer, or the
media engine become ready, for any call among anything, on any thread on which the operation is not
given up; an acceptance may fail with any failure there is.  If one runs, the call moves where it
leads and never stays behind: it is connected, and a linked record is complete unless that is
frozen, or it has failed, and the reply is the failure of the acceptance and no other.  Either way
the listener is told once, nothing is queued, and nothing is reported but where the operation was
called.  If the engine is ready for an answered call with nothing queued, this is reported once,
and the call fails and its listener is told once.  So afterwards the call is as it was, or waits in
`accepting` with the acceptance queued, or is ready to be answered, connected or failed. -/
theorem answering_is_never_stuck (scene : Scene) (thread : Thread) (op : Operation)
    (hop : op.answers = true)
    (hlasts : (scene.perform thread op).reply.isAborted = false) :
    let o := scene.perform thread op
    (∀ a ∈ acceptances o.trace, scene.Concludes a o ∧
      (a.failure = none → o.reply = .done ∧ o.scene.call.phase = .connected) ∧
      ∀ e, a.failure = some e → o.reply = .refused e ∧ o.scene.call.phase = .localFailure) ∧
    (op = .engineReady → scene.call.phase = .accepting → scene.call.deferred = none →
      o.reply = .refused .noDeferredAcceptance ∧ o.scene.call.phase = .localFailure ∧
        (defects o.trace).filter (!·.isStray) = [.acceptingWithoutDeferred] ∧
        moves o.trace = [(.accepting, .localFailure)] ∧
        (deliveries o.trace).map (·.posted) =
          (scene.call.route? scene.around (.phase .localFailure)).toList) ∧
    (o.scene = scene ∨
      (∃ a, op = .answer a ∧ o.scene.call.phase = .accepting ∧
        o.scene.call.deferred = some a) ∨
      o.scene.call.phase ∈ [.ringingReadyToAnswer, .connected, .localFailure] ∧
        o.scene.call.deferred = none) := by
  intro o
  refine ⟨fun a ha => ?_, ?_, ?_⟩
  · have hconcludes : scene.Concludes a o := Scene.concludes_of_ran ha hlasts
    refine ⟨hconcludes, fun hsucceeds => ?_, fun e hfails => ?_⟩
    · rw [hconcludes.reply, hconcludes.phase, Acceptance.verdict, Acceptance.target, hsucceeds]
      exact ⟨rfl, rfl⟩
    · rw [hconcludes.reply, hconcludes.phase, Acceptance.verdict, Acceptance.target, hfails]
      exact ⟨rfl, rfl⟩
  · rintro rfl hphase hdeferred
    exact Scene.engineReady_fails hphase hdeferred hlasts
  · rcases (scene.perform_step thread op).ends hop hlasts with hidle | hends
    · exact Or.inl (Scene.scene_of_idle hop hidle)
    · exact Or.inr hends

/-- An acceptance may fail with the very failure of a rule, and the call fails with it.  Where none
was queued the call fails all the same, and where one succeeds the record is complete. -/
theorem answered_call_comes_to_an_end :
    let a : Acceptance := { name := "a", failure := some (.illegalTransition .idle .connected) }
    let b : Acceptance := { name := "b" }
    let waiting (queued : Option Acceptance) : Scene :=
      ⟨{ Call.incoming with
          phase := .accepting, deferred := queued, record := some 0, listener := some 0 },
        ⟨[], [⟨.incomingIncomplete, false, 0⟩], [.observer]⟩⟩
    let failed := (waiting (some a)).perform 0 .engineReady
    let empty := (waiting none).perform 0 .engineReady
    let answered := (waiting (some b)).perform 0 .engineReady
    (waiting (some a)).Concludes a failed ∧
      failed.reply = .refused (.illegalTransition .idle .connected) ∧
      failed.scene.call.phase = .localFailure ∧
      empty.reply = .refused .noDeferredAcceptance ∧ empty.scene.call.phase = .localFailure ∧
      (waiting (some b)).Concludes b answered ∧ answered.reply = .done ∧
      answered.scene.recordKind? = some .incoming := by
  intro a b waiting failed empty answered
  obtain ⟨hran, -⟩ := answering_is_never_stuck (waiting (some a)) 0 .engineReady rfl (by decide)
  obtain ⟨hconcludes, -, hfails⟩ := hran a (by decide)
  obtain ⟨hreply, hphase⟩ := hfails _ rfl
  obtain ⟨-, hnothing, -⟩ := answering_is_never_stuck (waiting none) 0 .engineReady rfl (by decide)
  obtain ⟨hrefused, hover, -⟩ := hnothing rfl rfl rfl
  obtain ⟨hcompleted, -⟩ := answering_is_never_stuck (waiting (some b)) 0 .engineReady rfl
    (by decide)
  obtain ⟨hconnects, hsucceeds, -⟩ := hcompleted b (by decide)
  exact ⟨hconcludes, hreply, hphase, hrefused, hover, hconnects, (hsucceeds rfl).1, by decide⟩

end CallLifecycle
