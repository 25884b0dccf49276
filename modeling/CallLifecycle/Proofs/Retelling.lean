/-
The same for another reporter.

What a call does is not its reporter's business: the reporter decides where defects go, and
whether an operation is given up.  So where nothing is given up, an operation under one reporter
tells all there is to know of it under another.  `Happening.retold` says how one becomes the
other: each defect goes to the other reporter, and what the first one wrote of defects to the log
is left out.

Operations are compared by `Likeness`, with what has come of one being what has come of the other
retold.  On a switchboard, where each call may have a reporter of its own, all are given one and
the same.
-/
import CallLifecycle.Proofs.Likeness
import CallLifecycle.Proofs.Traffic

namespace CallLifecycle

open Trace

/-- A scene whose call gives its defects to another reporter. -/
def Scene.reportingTo (r : Reporter) (scene : Scene) : Scene :=
  { scene with call := scene.call.reportingTo r }

/-- A switchboard whose calls all give their defects to one reporter. -/
def Switchboard.reportingTo (r : Reporter) (board : Switchboard) : Switchboard :=
  { board with calls := board.calls.map (Option.map (Call.reportingTo r)) }

/-- A happening as another reporter would have it. -/
def Happening.retold (r : Reporter) : Happening → Trace
  | reported d => r.happenings d
  | noted (.defect _) => []
  | notified listener change seen => [.notified listener change (seen.reportingTo r)]
  | happening => [happening]

/-- What happened, as another reporter would have it. -/
def Trace.retold (r : Reporter) (trace : Trace) : Trace :=
  trace.flatMap (Happening.retold r)

/-- How far an operation has come, as another reporter would have it. -/
def Progress.retold (r : Reporter) (p : Progress) : Progress :=
  ⟨p.scene.reportingTo r, Trace.retold r p.trace⟩

/-- An outcome as another reporter would have it. -/
def Outcome.retold (r : Reporter) (o : Outcome) : Outcome :=
  ⟨o.scene.reportingTo r, Trace.retold r o.trace, o.reply⟩

/-- An aftermath as another reporter would have it. -/
def Aftermath.retold (r : Reporter) (after : Aftermath) : Aftermath :=
  ⟨after.board.reportingTo r, Trace.retold r after.trace, after.response⟩

variable (r : Reporter)

/-! ### Traces -/

namespace Trace

@[simp] theorem retold_append (s t : Trace) : retold r (s ++ t) = retold r s ++ retold r t :=
  List.flatMap_append

/-- What is logged is retold as it is, unless it is a defect. -/
theorem retold_noted {n : Note} (h : ∀ d, n ≠ .defect d) (t : Trace) :
    retold r (.noted n :: t) = .noted n :: retold r t := by
  cases n with
  | defect d => exact absurd rfl (h d)
  | _ => rfl

/-- Whoever a defect was given to, it is given to the other reporter once. -/
@[simp] theorem retold_happenings (reporter : Reporter) (d : Defect) :
    retold r (reporter.happenings d) = r.happenings d := by
  rcases happenings_cases reporter d with h | h <;> rw [h] <;> exact List.append_nil _

theorem retold_farewell (call : Call) :
    retold r call.farewell = (call.reportingTo r).farewell := by
  show _ = (if call.isOver then [] else r.happenings (.notEndedAtTeardown call.phase)) ++
    if call.registered = call.deregistered then []
    else r.happenings (.registrationMismatch call.registered call.deregistered)
  unfold Call.farewell
  rw [retold_append]
  congr 1
  · split
    · rfl
    · exact retold_happenings r _ _
  · split
    · rfl
    · exact retold_happenings r _ _

end Trace

/-! ### Operations -/

namespace Progress

variable (p : Progress)

@[simp] theorem retold_add (t : Trace) :
    (p.add t).retold r = (p.retold r).add (Trace.retold r t) := by
  unfold retold add
  rw [Trace.retold_append]

theorem retold_mapCall {f : Call → Call} (h : Call.IsMild f) :
    (p.mapCall f).retold r = (p.retold r).mapCall f := by
  unfold retold mapCall Scene.reportingTo
  rw [h.reporter]

theorem retold_mapAround (f : Surroundings → Surroundings) :
    (p.mapAround f).retold r = (p.retold r).mapAround f := rfl

theorem retold_notify (change : Change) :
    (p.notify change).retold r = (p.retold r).notify change := by
  have haudience : (p.retold r).scene.audience? = p.scene.audience? := rfl
  unfold notify
  rw [haudience]
  cases p.scene.audience? with
  | none => rfl
  | some found =>
      obtain ⟨i, listener⟩ := found
      show Progress.retold r (if _ then _ else _) = if _ then _ else _
      split
      · rw [retold_add]
        rfl
      · rw [retold_mapAround, retold_add]
        rfl

theorem retold_promoteRecord : p.promoteRecord.retold r = (p.retold r).promoteRecord := by
  have hdue : (p.retold r).scene.promotion? = p.scene.promotion? := rfl
  unfold promoteRecord
  rw [hdue]
  cases p.scene.promotion? with
  | none => rfl
  | some due =>
      show Progress.retold r (mapAround _ (p.add _)) = mapAround _ (add _ _)
      rw [retold_mapAround, retold_add]
      rfl

end Progress

/-- **An operation is retold part by part.** -/
theorem likeness_retold (thread : Thread) : Likeness thread fun p q => q = p.retold r where
  call := by
    rintro p q rfl
    exact ⟨r, rfl⟩
  mapCall := by
    rintro p q rfl f hf
    exact (p.retold_mapCall r hf).symm
  note := by
    rintro p q rfl n hn
    rw [Progress.retold_add, Trace.retold_noted r hn]
    rfl
  report := by
    rintro p q rfl d
    rw [Progress.retold_add, Trace.retold_happenings]
    rfl
  notify := by
    rintro p q rfl change
    exact (p.retold_notify r change).symm
  promoteRecord := by
    rintro p q rfl
    exact (p.retold_promoteRecord r).symm
  runAcceptance := by
    rintro p q rfl a
    rw [Progress.runAcceptance, Progress.runAcceptance, Progress.retold_mapAround,
      Progress.retold_add]
    rfl

/-- Which checks an operation makes is not the reporter's business. -/
theorem Operation.checks_reportingTo (call : Call) (op : Operation) :
    op.checks (call.reportingTo r) = op.checks call := by
  cases op <;> rfl

namespace Scene

variable {r} {scene : Scene} {thread : Thread} {op : Operation}

/-- **Where nothing is given up, another reporter makes no other difference** to an operation. -/
theorem perform_retold (h : scene.call.cutsShort thread op = false)
    (hr : (scene.call.reportingTo r).cutsShort thread op = false) :
    (scene.reportingTo r).perform thread op = (scene.perform thread op).retold r := by
  rw [Call.cutsShort, Operation.checks_reportingTo] at hr
  have hbars : ∀ operation ∈ op.checks scene.call,
      (scene.reportingTo r).call.bars thread operation = scene.call.bars thread operation := by
    intro operation hcheck
    rw [Bool.eq_false_iff.mpr (List.any_eq_false.mp h operation hcheck)]
    exact Bool.eq_false_iff.mpr (List.any_eq_false.mp hr operation hcheck)
  have hstart : (⟨scene.reportingTo r, []⟩ : Progress) = Progress.retold r ⟨scene, []⟩ := rfl
  obtain ⟨hreply, hretold⟩ := (likeness_retold r thread).perform hstart op hbars
  cases hp : (scene.reportingTo r).perform thread op with
  | mk left trace reply =>
      rw [hp] at hreply hretold
      cases hretold
      cases hreply
      rfl

/-- A call that goes away gives up under no reporter. -/
theorem close_retold : (scene.reportingTo r).close = scene.close.retold r := by
  have htrace : Trace.retold r (.noted (.dropping scene.call.label) :: scene.call.farewell) =
      .noted (.dropping scene.call.label) :: (scene.call.reportingTo r).farewell := by
    rw [Trace.retold_noted r (n := .dropping scene.call.label) fun _ => nofun,
      Trace.retold_farewell]
  rw [close_eq, close_eq]
  exact congrArg (fun trace => Progress.outcome ⟨scene.reportingTo r, trace⟩ .done) htrace.symm

end Scene

/-! ### Events -/

/-- Whether an episode comes to the same for another reporter. -/
def Episode.Retold (r : Reporter) (e : Episode) : Prop :=
  (e.scene.reportingTo r).perform e.thread e.op = e.outcome.retold r

namespace Switchboard

variable {r} {board : Switchboard} {event : Event}

@[simp] theorem call?_reportingTo (i : Nat) :
    (board.reportingTo r).call? i = (board.call? i).map (Call.reportingTo r) := by
  unfold call? reportingTo
  rw [List.getElem?_map]
  cases board.calls[i]? with
  | none => rfl
  | some call => rfl

/-- What is left of a switchboard once one of its calls has become what a turn leaves of it. -/
theorem retold_set (i : Nat) (left : Option Call) (o : Outcome) :
    Aftermath.retold r ⟨⟨board.calls.set i left, o.scene.around⟩, o.trace, .reply o.reply⟩ =
      ⟨⟨(board.reportingTo r).calls.set i (left.map (Call.reportingTo r)),
        (o.retold r).scene.around⟩, (o.retold r).trace, .reply (o.retold r).reply⟩ := by
  unfold Aftermath.retold reportingTo
  rw [List.map_set]
  rfl

theorem perform_retold {i : Nat} {thread : Thread} {op : Operation}
    (h : ∀ e, board.episode? (.perform i thread op) = some e → e.Retold r) :
    (board.reportingTo r).perform i thread op = (board.perform i thread op).retold r := by
  unfold perform
  rw [call?_reportingTo]
  cases hcall : board.call? i with
  | none => rfl
  | some call =>
      simp only [Option.map_some]
      show (if op.listener?.any fun l => (board.around.liveListener? l).isNone then _ else _) = _
      cases hl : op.listener?.any fun l => (board.around.liveListener? l).isNone with
      | true => rfl
      | false =>
          have hdeed : board.deed? i (.perform i thread op) = some ⟨thread, op, board.around⟩ := by
            simp [deed?, hl]
          have hretold : Scene.perform ⟨call.reportingTo r, board.around⟩ thread op =
              (Scene.perform ⟨call, board.around⟩ thread op).retold r :=
            h _ (episode?_of_deed? hcall hdeed)
          have hleft : (Scene.perform ⟨call, board.around⟩ thread op).scene.call.reportingTo r =
              (Scene.perform ⟨call.reportingTo r, board.around⟩ thread op).scene.call :=
            congrArg (·.scene.call) hretold.symm
          simp only [Bool.false_eq_true, ↓reduceIte, settle]
          rw [retold_set, ← hretold, Option.map_some, hleft]
          rfl

theorem drop_retold (i : Nat) :
    (board.reportingTo r).drop i = (board.drop i).retold r := by
  unfold drop
  rw [call?_reportingTo]
  cases board.call? i with
  | none => rfl
  | some call =>
      have hclosed : (Scene.reportingTo r ⟨call, board.around⟩).close =
          (Scene.close ⟨call, board.around⟩).retold r := Scene.close_retold
      simp only [Option.map_some]
      rw [retold_set, ← hclosed]
      rfl

/-- **Where an episode comes to the same for another reporter, so does the event.** -/
theorem handle_retold (h : ∀ e, board.episode? event = some e → e.Retold r) :
    (board.reportingTo r).handle event = (board.handle event).retold r := by
  cases event with
  | perform i thread op => exact perform_retold h
  | takeAndRun i thread =>
      rw [episode?_takeAndRun] at h
      show (board.reportingTo r).takeAndRun i thread = (board.takeAndRun i thread).retold r
      unfold takeAndRun
      rw [perform_retold h]
      obtain ⟨left, trace, response⟩ := board.perform i thread .handOver
      cases response with
      | reply reply =>
          cases reply with
          | handed queued =>
              cases queued with
              | none => rfl
              | some a =>
                  simp only [Aftermath.retold, Trace.retold_append]
                  rfl
          | done | refused e | aborted d => rfl
      | noCall | noListener | noReceiver | ranTaken failure | drained notices => rfl
  | drop i => exact drop_retold i
  | outside step => rfl

end Switchboard

end CallLifecycle
