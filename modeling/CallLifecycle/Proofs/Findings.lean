/-
What an operation reports.

On its way an operation checks the context it is called in, and finds rules broken.
`Operation.findings` lists both for each operation, in the order in which it comes upon
them, by what the call is when the operation finds it; the thread has no part in the
list.  A broken rule is always reported, a check only on a foreign thread.

`Scene.perform_defects` says that an operation reports its findings and nothing else.
One that is given up has come no further than the check that is the end of it, and
reports what it came upon so far: `Call.reached`.
-/
import CallLifecycle.Proofs.Traffic

namespace CallLifecycle

open Trace

/-- Whether a defect is that an operation was called off its context. -/
def Defect.isStray : Defect → Bool
  | offContext .. => true
  | _ => false

/-- What an operation comes upon. -/
inductive Finding
  /-- The context is checked, in the name of an operation. -/
  | check (operation : String)
  /-- A rule is broken. -/
  | fault (d : Defect)

namespace Finding

/-- The operation in whose name the context is checked. -/
def check? : Finding → Option String
  | check operation => some operation
  | fault _ => none

/-- What is reported of a finding by an operation on a call, called on a thread. -/
def report (call : Call) (thread : Thread) : Finding → List Defect
  | check operation =>
    if thread = call.owner then [] else [.offContext operation call.owner thread]
  | fault d => [d]

end Finding

/-- What queueing an acceptance comes upon: another one that is queued. -/
def Call.replacing (call : Call) : List Finding :=
  if call.deferred.isSome then [.fault .deferredReplaced] else []

/-- What an operation comes upon in a call, in order. -/
def Operation.findings (call : Call) : Operation → List Finding
  | setPhase new =>
    .check "set_state" ::
      if Phase.allows call.enforced call.phase new then []
      else [.fault (.illegalTransition call.phase new)]
  | awaitMedia _ =>
    .check "begin_accepting" ::
      if Phase.allows call.enforced call.phase .accepting then call.replacing
      else [.fault (.illegalTransition call.phase .accepting)]
  | deferAcceptance _ =>
    .check "set_deferred_acceptance" ::
      if call.phase = .accepting then call.replacing
      else [.fault (.deferredOutsideAccepting call.phase)]
  | handOver => [.check "take_deferred_acceptance"]
  | answer _ =>
    if call.phase = .ringingReadyToAnswer then [.check "set_state"]
    else if call.phase = .ringingAnticipatory then .check "begin_accepting" :: call.replacing
    else []
  | engineReady =>
    if call.phase = .answering ∨ call.phase = .ringingAnticipatory then [.check "set_state"]
    else if call.phase = .accepting then
      .check "take_deferred_acceptance" ::
        if call.deferred.isSome then [.check "set_state"]
        else [.fault .acceptingWithoutDeferred, .check "set_state"]
    else []
  | linkRecord _ =>
    .check "set_call_record" :: if call.record.isSome then [.fault .recordRelinked] else []
  | assignSignalingId _ => [.check "set_signaling_id"]
  | setSwitch switch _ => [.check switch.operation]
  | setRoute _ => [.check "set_network_route"]
  | attach _ => [.check "set_delegate"]
  | detach => [.check "clear_delegate"]
  | register => [.check "mark_reported_to_system"]
  | deregister =>
    .check "mark_removed_from_system" ::
      if call.registered then [] else [.fault .deregisteredBeforeRegistered]

/-- The checks that an operation makes, by the operations in whose names it makes them. -/
def Operation.checks (call : Call) (op : Operation) : List String :=
  (op.findings call).filterMap Finding.check?

@[simp] theorem Call.checks_replacing (call : Call) :
    call.replacing.filterMap Finding.check? = [] := by
  unfold replacing
  split <;> rfl

namespace Operation

variable {call : Call} {op : Operation}

/-! ### What the two sides of answering come upon -/

theorem findings_answer_of_ready (h : call.phase = .ringingReadyToAnswer) (a : Acceptance) :
    (answer a).findings call = [.check "set_state"] :=
  if_pos h

theorem findings_answer_of_anticipatory (h : call.phase = .ringingAnticipatory)
    (a : Acceptance) : (answer a).findings call = .check "begin_accepting" :: call.replacing := by
  have hready : call.phase ≠ .ringingReadyToAnswer := by
    rw [h]
    nofun
  exact (if_neg hready).trans (if_pos h)

theorem findings_answer_of_not_ringing (hready : call.phase ≠ .ringingReadyToAnswer)
    (hanticipatory : call.phase ≠ .ringingAnticipatory) (a : Acceptance) :
    (answer a).findings call = [] :=
  (if_neg hready).trans (if_neg hanticipatory)

theorem findings_engineReady_of_unanswered
    (h : call.phase = .answering ∨ call.phase = .ringingAnticipatory) :
    engineReady.findings call = [.check "set_state"] :=
  if_pos h

theorem findings_engineReady_of_accepting (h : call.phase = .accepting) :
    engineReady.findings call =
      .check "take_deferred_acceptance" ::
        if call.deferred.isSome then [.check "set_state"]
        else [.fault .acceptingWithoutDeferred, .check "set_state"] := by
  have hanswered : ¬ (call.phase = .answering ∨ call.phase = .ringingAnticipatory) := by
    rw [h]
    nofun
  exact (if_neg hanswered).trans (if_pos h)

theorem findings_engineReady_of_queued (h : call.phase = .accepting) {a : Acceptance}
    (hdeferred : call.deferred = some a) :
    engineReady.findings call = [.check "take_deferred_acceptance", .check "set_state"] := by
  rw [findings_engineReady_of_accepting h, hdeferred]
  rfl

theorem findings_engineReady_of_nothing_queued (h : call.phase = .accepting)
    (hdeferred : call.deferred = none) :
    engineReady.findings call =
      [.check "take_deferred_acceptance", .fault .acceptingWithoutDeferred,
        .check "set_state"] := by
  rw [findings_engineReady_of_accepting h, hdeferred]
  rfl

theorem findings_engineReady_of_else
    (hanswered : ¬ (call.phase = .answering ∨ call.phase = .ringingAnticipatory))
    (hphase : call.phase ≠ .accepting) : engineReady.findings call = [] :=
  (if_neg hanswered).trans (if_neg hphase)

/-! ### The checks -/

/-- A check that no other follows is the only one. -/
theorem checks_of_findings {operation : String} {rest : List Finding}
    (hfindings : op.findings call = .check operation :: rest)
    (hrest : rest.filterMap Finding.check? = []) : op.checks call = [operation] := by
  rw [checks, hfindings]
  exact congrArg _ hrest

theorem checks_answer_of_anticipatory (h : call.phase = .ringingAnticipatory) (a : Acceptance) :
    (answer a).checks call = ["begin_accepting"] :=
  checks_of_findings (findings_answer_of_anticipatory h a) call.checks_replacing

/-- An answered call is checked twice when the media engine is ready for it. -/
theorem checks_engineReady (h : call.phase = .accepting) :
    engineReady.checks call = ["take_deferred_acceptance", "set_state"] := by
  rw [checks, findings_engineReady_of_accepting h]
  split <;> rfl

end Operation

/-- Whether an operation is given up on a thread, at one of the checks that it makes. -/
def Call.cutsShort (call : Call) (thread : Thread) (op : Operation) : Bool :=
  (op.checks call).any (call.bars thread)

/-- Nothing is cut short on the call's own thread, nor by a reporter that never gives up. -/
theorem Call.cutsShort_eq_false {call : Call} {thread : Thread}
    (h : thread = call.owner ∨ call.reporter.NeverGivesUp) (op : Operation) :
    call.cutsShort thread op = false := by
  refine List.any_eq_false.mpr fun operation _ => ?_
  rw [bars_eq_false h]
  exact Bool.false_ne_true

/-- Whether an operation that makes one check is given up is decided there. -/
theorem Call.cutsShort_eq_bars {call : Call} {op : Operation} {operation : String}
    {rest : List Finding} (hfindings : op.findings call = .check operation :: rest)
    (hrest : rest.filterMap Finding.check? = []) (thread : Thread) :
    call.cutsShort thread op = call.bars thread operation := by
  rw [cutsShort, Operation.checks_of_findings hfindings hrest]
  exact Bool.or_false _

/-- What is no part of answering makes one check, the same for any call. -/
theorem Operation.exists_cutsShort_eq_bars (op : Operation) (hanswer : ∀ a, op ≠ .answer a)
    (hready : op ≠ .engineReady) :
    ∃ operation, ∀ (call : Call) (thread : Thread),
      call.cutsShort thread op = call.bars thread operation := by
  cases op with
  | answer a => exact absurd rfl (hanswer a)
  | engineReady => exact absurd rfl hready
  | setPhase new =>
      refine ⟨"set_state", fun call => Call.cutsShort_eq_bars rfl ?_⟩
      split <;> rfl
  | awaitMedia a =>
      refine ⟨"begin_accepting", fun call => Call.cutsShort_eq_bars rfl ?_⟩
      split
      · exact call.checks_replacing
      · rfl
  | deferAcceptance a =>
      refine ⟨"set_deferred_acceptance", fun call => Call.cutsShort_eq_bars rfl ?_⟩
      split
      · exact call.checks_replacing
      · rfl
  | linkRecord record =>
      refine ⟨"set_call_record", fun call => Call.cutsShort_eq_bars rfl ?_⟩
      split <;> rfl
  | deregister =>
      refine ⟨"mark_removed_from_system", fun call => Call.cutsShort_eq_bars rfl ?_⟩
      split <;> rfl
  | _ => exact ⟨_, fun call => Call.cutsShort_eq_bars rfl rfl⟩

/-- An operation that is not given up passes the check that it makes first. -/
theorem Call.bars_of_cutsShort {call : Call} {thread : Thread} {op : Operation}
    {operation : String} {rest : List Finding}
    (hfindings : op.findings call = .check operation :: rest)
    (h : call.cutsShort thread op = false) : call.bars thread operation = false := by
  rw [cutsShort, Operation.checks, hfindings] at h
  exact (Bool.or_eq_false_iff.mp h).1

/-- What is come upon until an operation is given up: everything up to the check that is the end
of it, if there is one. -/
def Call.reached (call : Call) (thread : Thread) : List Finding → List Finding
  | [] => []
  | .fault d :: rest => .fault d :: call.reached thread rest
  | .check operation :: rest =>
    .check operation :: if call.bars thread operation then [] else call.reached thread rest

/-- What an operation reports of some findings. -/
def Call.report (call : Call) (thread : Thread) (findings : List Finding) : List Defect :=
  findings.flatMap (Finding.report call thread)

/-! ### What the parts of an operation report -/

namespace Call

variable (call : Call) (thread : Thread)

@[simp] theorem reached_nil : call.reached thread [] = [] := rfl

@[simp] theorem reached_fault (d : Defect) (findings : List Finding) :
    call.reached thread (.fault d :: findings) = .fault d :: call.reached thread findings := rfl

@[simp] theorem reached_check (operation : String) (findings : List Finding) :
    call.reached thread (.check operation :: findings) =
      .check operation ::
        if call.bars thread operation then [] else call.reached thread findings := rfl

@[simp] theorem reached_replacing : call.reached thread call.replacing = call.replacing := by
  unfold replacing
  split <;> rfl

/-- An operation that is not given up comes upon everything. -/
theorem reached_eq_self {findings : List Finding}
    (h : (findings.filterMap Finding.check?).any (call.bars thread) = false) :
    call.reached thread findings = findings := by
  induction findings with
  | nil => rfl
  | cons finding rest ih =>
      cases finding with
      | fault d => exact congrArg _ (ih h)
      | check operation =>
          have hboth : (call.bars thread operation ||
              (rest.filterMap Finding.check?).any (call.bars thread)) = false := h
          obtain ⟨hnow, hlater⟩ := Bool.or_eq_false_iff.mp hboth
          rw [reached_check, hnow, if_neg Bool.false_ne_true, ih hlater]

/-- Nothing is come upon but what an operation would come upon in full. -/
theorem mem_of_mem_reached {finding : Finding} {findings : List Finding}
    (h : finding ∈ call.reached thread findings) : finding ∈ findings := by
  induction findings with
  | nil => exact h
  | cons first rest ih =>
      cases first with
      | fault d =>
          rcases List.mem_cons.mp h with rfl | hlater
          · exact List.mem_cons_self
          · exact List.mem_cons_of_mem _ (ih hlater)
      | check operation =>
          rw [reached_check] at h
          rcases List.mem_cons.mp h with rfl | hlater
          · exact List.mem_cons_self
          · split at hlater
            · cases hlater
            · exact List.mem_cons_of_mem _ (ih hlater)

@[simp] theorem report_nil : call.report thread [] = [] := rfl

@[simp] theorem report_fault (d : Defect) (findings : List Finding) :
    call.report thread (.fault d :: findings) = d :: call.report thread findings := rfl

/-- A check is reported just as it is traced. -/
@[simp] theorem report_check (operation : String) (findings : List Finding) :
    call.report thread (.check operation :: findings) =
      defects (call.strayed thread operation) ++ call.report thread findings := by
  unfold strayed
  show (if thread = call.owner then [] else _) ++ call.report thread findings = _
  by_cases h : thread = call.owner
  · rw [if_pos h, if_pos h, defects_nil]
  · rw [if_neg h, if_neg h, defects_happenings]

@[simp] theorem report_replacing :
    call.report thread call.replacing =
      if call.deferred.isSome then [.deferredReplaced] else [] := by
  unfold replacing
  split <;> rfl

@[simp] theorem defects_reassignment (id : UInt64) : defects (call.reassignment id) = [] := by
  rcases call.reassignment_eq id with h | ⟨n, h⟩
  · rw [h, defects_nil]
  · rw [h, defects_noted, defects_nil]

end Call

namespace Progress

variable (p : Progress)

@[simp] theorem defects_enter (new : Phase) : defects (p.enter new).trace = defects p.trace := by
  unfold enter
  split <;> simp

@[simp] theorem defects_enqueue (a : Acceptance) :
    defects (p.enqueue a).trace =
      defects p.trace ++ if p.scene.call.deferred.isSome then [.deferredReplaced] else [] := by
  unfold enqueue
  split <;> simp

@[simp] theorem defects_carryOut (a : Acceptance) :
    defects (p.carryOut a).trace = defects p.trace := by
  have hlament : defects (a.lament p.scene.call.label) = [] := by
    unfold Acceptance.lament
    cases a.failure <;> rfl
  have hran : defects [Happening.ran a] = [] := rfl
  unfold carryOut runAcceptance
  rw [add_trace, defects_append, hlament, mapAround_trace, add_trace, defects_append, hran,
    List.append_nil, List.append_nil]

end Progress

/-! ### What an operation reports -/

namespace Scene

/-- An operation reports what it comes upon, as far as it gets. -/
def Reports (scene : Scene) (thread : Thread) (op : Operation) (o : Outcome) : Prop :=
  defects o.trace = scene.call.report thread (scene.call.reached thread (op.findings scene.call))

variable {scene : Scene} {thread : Thread} {op : Operation}

/-- An operation that makes a check first is given up there, or reports that and the rest. -/
theorem reports_of_checked {operation : String} {rest : List Finding} {o : Outcome}
    (hfindings : op.findings scene.call = .check operation :: rest)
    (hdone : defects o.trace =
      scene.call.report thread (.check operation :: scene.call.reached thread rest)) :
    scene.Reports thread op
      (if scene.call.bars thread operation then scene.giveUp thread operation else o) := by
  unfold Reports
  rw [hfindings, Call.reached_check]
  cases scene.call.bars thread operation with
  | true => simp [giveUp]
  | false => exact hdone

/-- Concluding with an acceptance makes one check, whether it is the end of it or not. -/
theorem defects_conclude (p : Progress) (thread : Thread) (a : Acceptance) :
    defects (p.conclude thread a).trace =
      defects p.trace ++ defects (p.scene.call.strayed thread "set_state") := by
  unfold Progress.conclude
  cases p.scene.call.bars thread "set_state" <;> simp

theorem reports_answer (a : Acceptance) :
    scene.Reports thread (.answer a) (scene.perform thread (.answer a)) := by
  by_cases hready : scene.call.phase = .ringingReadyToAnswer
  · rw [perform_answer_of_ready hready, Reports, Operation.findings_answer_of_ready hready,
      defects_conclude]
    simp
  · by_cases hanticipatory : scene.call.phase = .ringingAnticipatory
    · rw [perform_answer_of_anticipatory hanticipatory, Reports,
        Operation.findings_answer_of_anticipatory hanticipatory, Call.reached_check]
      cases scene.call.bars thread "begin_accepting" with
      | true => simp
      | false => simp
    · rw [perform_answer_of_not_ringing hready hanticipatory, Reports,
        Operation.findings_answer_of_not_ringing hready hanticipatory]
      simp

theorem reports_setPhase (new : Phase) :
    scene.Reports thread (.setPhase new) (scene.perform thread (.setPhase new)) := by
  rw [perform_setPhase]
  refine reports_of_checked rfl ?_
  split <;> simp

theorem reports_engineReady :
    scene.Reports thread .engineReady (scene.perform thread .engineReady) := by
  by_cases hunanswered : scene.call.phase = .answering ∨ scene.call.phase = .ringingAnticipatory
  · have ha : Phase.allows scene.call.enforced scene.call.phase .ringingReadyToAnswer = true := by
      rcases hunanswered with h | h <;> rw [h] <;> cases scene.call.enforced <;> rfl
    rw [perform_engineReady_of_unanswered hunanswered, perform_setPhase, if_pos ha]
    exact reports_of_checked (Operation.findings_engineReady_of_unanswered hunanswered) (by simp)
  · by_cases hphase : scene.call.phase = .accepting
    · cases hdeferred : scene.call.deferred with
      | some a =>
          rw [perform_engineReady_of_queued hphase hdeferred]
          refine reports_of_checked (Operation.findings_engineReady_of_queued hphase hdeferred) ?_
          rw [defects_conclude, Call.reached_check, Call.reached_nil, ite_self,
            Call.report_check, Call.report_check, Call.report_nil, List.append_nil]
          rfl
      | none =>
          have hfindings := Operation.findings_engineReady_of_nothing_queued hphase hdeferred
          rw [perform_engineReady_of_nothing_queued hphase hdeferred]
          refine reports_of_checked hfindings ?_
          split <;> simp
    · have hfindings := Operation.findings_engineReady_of_else hunanswered hphase
      rw [not_or] at hunanswered
      rw [perform_engineReady_of_else hunanswered.1 hunanswered.2 hphase, Reports, hfindings]
      simp

variable (scene) (thread) in
/-- **An operation reports what it finds and nothing else.** -/
theorem perform_defects (op : Operation) : scene.Reports thread op (scene.perform thread op) := by
  cases op with
  | setPhase new => exact reports_setPhase new
  | awaitMedia a =>
      rw [perform_awaitMedia]
      refine reports_of_checked rfl ?_
      split <;> simp
  | deferAcceptance a =>
      rw [perform_deferAcceptance]
      refine reports_of_checked rfl ?_
      by_cases hphase : scene.call.phase = .accepting
      · rw [if_pos hphase, if_pos hphase, Call.report_check, Call.reached_replacing,
          Call.report_replacing]
        exact Progress.defects_enqueue _ a
      · rw [if_neg hphase, if_neg hphase]
        simp
  | handOver =>
      rw [perform_handOver]
      exact reports_of_checked rfl (by simp)
  | answer a => exact reports_answer a
  | engineReady => exact reports_engineReady
  | linkRecord record =>
      rw [perform_linkRecord]
      refine reports_of_checked rfl ?_
      split <;> simp
  | assignSignalingId id =>
      rw [perform_assignSignalingId]
      exact reports_of_checked rfl (by simp)
  | setSwitch switch on =>
      rw [perform_setSwitch]
      exact reports_of_checked rfl (by simp)
  | setRoute route =>
      rw [perform_setRoute]
      exact reports_of_checked rfl (by simp)
  | attach listener =>
      rw [perform_attach]
      exact reports_of_checked rfl (by simp)
  | detach =>
      rw [perform_detach]
      exact reports_of_checked rfl (by simp)
  | register =>
      rw [perform_register]
      exact reports_of_checked rfl (by simp)
  | deregister =>
      rw [perform_deregister]
      refine reports_of_checked rfl ?_
      split <;> simp

end Scene

/-! ### What a report says

A report of being called off the context comes from a check and every other report from a
broken rule, so the two can be told apart afterwards.
-/

/-- Whether a finding is about a rule that has nothing to do with the context, if it is about
one. -/
def Finding.isPlain : Finding → Bool
  | check _ => true
  | fault d => !d.isStray

theorem Operation.isPlain_of_mem_findings {call : Call} {op : Operation} :
    ∀ finding ∈ op.findings call, finding.isPlain = true := by
  rw [← List.all_eq_true]
  unfold findings Call.replacing
  repeat' split
  all_goals rfl

namespace Call

variable {call : Call} {thread : Thread}

/-- What is reported of checks is one report for each of them, on a foreign thread. -/
theorem filter_report {findings : List Finding}
    (hplain : ∀ finding ∈ findings, finding.isPlain = true) :
    (call.report thread findings).filter Defect.isStray =
      if thread = call.owner then []
      else (findings.filterMap Finding.check?).map (.offContext · call.owner thread) := by
  induction findings with
  | nil => simp
  | cons finding rest ih =>
      obtain ⟨hfinding, hrest⟩ := List.forall_mem_cons.mp hplain
      have hlater := ih hrest
      cases finding with
      | check operation =>
          by_cases hthread : thread = call.owner
          · rw [if_pos hthread] at hlater ⊢
            rw [report_check, List.filter_append, hlater, strayed, if_pos hthread]
            rfl
          · rw [if_neg hthread] at hlater ⊢
            rw [report_check, List.filter_append, hlater, strayed, if_neg hthread,
              defects_happenings]
            rfl
      | fault d =>
          have hd : d.isStray = false := (Bool.not_eq_true' _).mp hfinding
          rw [report_fault, List.filter_cons_of_neg (by simp [hd]), hlater]
          rfl

/-- Whatever else is reported is a rule that was found broken. -/
theorem fault_of_mem_report {d : Defect} {findings : List Finding}
    (h : d ∈ call.report thread findings) (hd : d.isStray = false) : .fault d ∈ findings := by
  obtain ⟨finding, hfinding, hreported⟩ := List.mem_flatMap.mp h
  cases finding with
  | check operation =>
      rw [Finding.report] at hreported
      split at hreported
      · simp at hreported
      · rw [List.mem_singleton.mp hreported] at hd
        cases hd
  | fault fault =>
      rw [List.mem_singleton.mp hreported]
      exact hfinding

theorem mem_report_of_fault {d : Defect} {findings : List Finding} (h : .fault d ∈ findings) :
    d ∈ call.report thread findings :=
  List.mem_flatMap.mpr ⟨_, h, List.mem_singleton_self d⟩

end Call

/-! ### Illegal transitions -/

/-- The phase that an operation asks for, where the call may refuse it. -/
def Operation.asked? : Operation → Option Phase
  | setPhase new => some new
  | awaitMedia _ => some .accepting
  | _ => none

namespace Operation

variable {call : Call} {op : Operation}

theorem fault_illegalTransition_iff {old new : Phase} :
    .fault (.illegalTransition old new) ∈ op.findings call ↔
      op.asked? = some new ∧ call.phase = old ∧ Phase.allows call.enforced old new = false := by
  have hreplacing : .fault (.illegalTransition old new) ∉ call.replacing := by
    unfold Call.replacing
    split <;> simp
  have hrefused : ∀ asked : Phase, ∀ rest : List Finding,
      .fault (.illegalTransition old new) ∉ rest →
        (.fault (.illegalTransition old new) ∈
            (if Phase.allows call.enforced call.phase asked then rest
            else [.fault (.illegalTransition call.phase asked)]) ↔
          asked = new ∧ call.phase = old ∧ Phase.allows call.enforced old new = false) := by
    intro asked rest hrest
    by_cases ha : Phase.allows call.enforced call.phase asked = true
    · rw [if_pos ha]
      refine iff_of_false hrest ?_
      rintro ⟨rfl, rfl, hn⟩
      rw [ha] at hn
      cases hn
    · rw [if_neg ha, List.mem_singleton]
      constructor
      · intro heq
        cases heq
        exact ⟨rfl, rfl, Bool.eq_false_iff.mpr ha⟩
      · rintro ⟨rfl, rfl, -⟩
        rfl
  cases op with
  | setPhase asked => simpa [findings, Operation.asked?] using hrefused asked [] (by simp)
  | awaitMedia a =>
      simpa [findings, Operation.asked?] using hrefused .accepting call.replacing hreplacing
  | _ =>
      refine iff_of_false ?_ (by simp [Operation.asked?])
      simp only [findings]
      repeat' split
      all_goals simp [hreplacing]

end Operation

namespace Call

variable {call : Call} {thread : Thread} {op : Operation}

/-- What makes one check and no more passes that before it comes upon a fault. -/
theorem cutsShort_of_fault {operation : String} {rest : List Finding} {d : Defect}
    (hfindings : op.findings call = .check operation :: rest)
    (hrest : rest.filterMap Finding.check? = [])
    (h : .fault d ∈ call.reached thread (op.findings call)) :
    call.cutsShort thread op = false := by
  rw [hfindings, reached_check] at h
  cases hb : call.bars thread operation with
  | true => simp [hb] at h
  | false => rw [cutsShort_eq_bars hfindings hrest, hb]

/-- What is refused was not given up. -/
theorem cutsShort_of_refused {old new : Phase}
    (h : .fault (.illegalTransition old new) ∈ call.reached thread (op.findings call)) :
    call.cutsShort thread op = false := by
  have hfault := Operation.fault_illegalTransition_iff.mp (call.mem_of_mem_reached thread h)
  cases op with
  | setPhase asked =>
      refine cutsShort_of_fault rfl ?_ h
      split <;> rfl
  | awaitMedia a =>
      refine cutsShort_of_fault rfl ?_ h
      split
      · exact call.checks_replacing
      · rfl
  | _ => cases hfault.1

end Call

/-- **An illegal transition is reported of what the call's rule refuses**, and of nothing else. -/
theorem Scene.mem_defects_illegalTransition {scene : Scene} {thread : Thread} {op : Operation}
    {old new : Phase} :
    .illegalTransition old new ∈ defects (scene.perform thread op).trace ↔
      scene.call.cutsShort thread op = false ∧ op.asked? = some new ∧ scene.call.phase = old ∧
        Phase.allows scene.call.enforced old new = false := by
  rw [scene.perform_defects thread op, ← Operation.fault_illegalTransition_iff]
  constructor
  · intro hmem
    have hfault := Call.fault_of_mem_report hmem rfl
    exact ⟨Call.cutsShort_of_refused hfault, Call.mem_of_mem_reached _ _ hfault⟩
  · rintro ⟨hcut, hfault⟩
    rw [Call.reached_eq_self _ _ hcut]
    exact Call.mem_report_of_fault hfault

/-! ### What an event reports -/

/-- Whether a defect is one that only a call which goes away reports. -/
def Defect.isFarewell : Defect → Bool
  | notEndedAtTeardown _ | registrationMismatch .. => true
  | _ => false

theorem Call.isFarewell_of_mem {call : Call} {d : Defect} (h : d ∈ defects call.farewell) :
    d.isFarewell = true := by
  unfold farewell at h
  rw [defects_append, List.mem_append] at h
  rcases h with h | h
  · split at h
    · cases h
    · rw [defects_happenings, List.mem_singleton] at h
      rw [h]
      rfl
  · split at h
    · cases h
    · rw [defects_happenings, List.mem_singleton] at h
      rw [h]
      rfl

namespace Switchboard

variable {board : Switchboard} {event : Event}

/-- An event that reaches a call reports what the episode does. -/
theorem defects_of_episode {e : Episode} (h : board.episode? event = some e) :
    defects (board.handle event).trace = defects e.outcome.trace := by
  obtain ⟨extra, -, htrace, -⟩ := handle_of_episode h
  have hextra : defects (extraRuns extra) = [] := filterMap_extraRuns extra fun _ => rfl
  rw [htrace, defects_append, hextra, List.append_nil]

/-- An event that reaches no call reports nothing but that a call has gone away too early. -/
theorem isFarewell_of_no_episode (h : board.episode? event = none) :
    ∀ d ∈ defects (board.handle event).trace, d.isFarewell = true := by
  intro d hd
  obtain ⟨htrace | ⟨call, htrace⟩, -⟩ := trace_of_no_episode h
  · rw [htrace] at hd
    cases hd
  · rw [htrace] at hd
    exact Call.isFarewell_of_mem hd

/-- A refusal that is reported comes from an episode. -/
theorem exists_refusal {old new : Phase}
    (h : .illegalTransition old new ∈ defects (board.handle event).trace) :
    ∃ e, board.episode? event = some e ∧ e.scene.call.cutsShort e.thread e.op = false ∧
      e.op.asked? = some new ∧ e.scene.call.phase = old ∧
      Phase.allows e.scene.call.enforced old new = false := by
  cases he : board.episode? event with
  | none => cases isFarewell_of_no_episode he _ h
  | some e =>
      rw [defects_of_episode he] at h
      exact ⟨e, rfl, Scene.mem_defects_illegalTransition.mp h⟩

end Switchboard

end CallLifecycle
