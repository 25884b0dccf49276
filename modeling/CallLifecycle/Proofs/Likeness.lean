/-
Two operations side by side.

Some things about an operation are said of two scenes at once: that it comes to the same for
another reporter, or among surroundings that are only partly the same.  All of them are
relations between what has come of the operation here and there, and all are proved alike, by
showing that each part of an operation keeps the relation.

`Likeness` lists what has to be shown of the parts.  The calls may differ in their reporters,
which are the only thing an operation passes on without going by it.  The one branch that asks
for the reporter is whether the operation is given up at a check, so the two have to give up at
the same of the checks that the operation makes.  `Likeness.perform` puts the parts together for
every operation, once for all relations.
-/
import CallLifecycle.Proofs.Findings

namespace CallLifecycle

/-- A call that gives its defects to another reporter. -/
def Call.reportingTo (reporter : Reporter) (call : Call) : Call :=
  { call with reporter := reporter }

/-- A change of a call that is about neither its reporter nor its owner. -/
structure Call.IsMild (f : Call → Call) : Prop where
  reporter : ∀ call reporter, f (call.reportingTo reporter) = (f call).reportingTo reporter
  owner : ∀ call, (f call).owner = call.owner

theorem Switch.isMild_set (on : Bool) (switch : Switch) : Call.IsMild (switch.set on ·) where
  reporter _ _ := by cases switch <;> rfl
  owner _ := by cases switch <;> rfl

@[simp] theorem Progress.add_nil (p : Progress) : p.add [] = p := by
  unfold add
  rw [List.append_nil]

/-- How far an operation has come once it is over. -/
def Outcome.progress (o : Outcome) : Progress :=
  ⟨o.scene, o.trace⟩

/-- A relation that the parts of an operation keep, on a thread. -/
structure Likeness (thread : Thread) (R : Progress → Progress → Prop) : Prop where
  /-- The calls are one but for their reporters. -/
  call {p q : Progress} (h : R p q) :
    ∃ reporter, q.scene.call = p.scene.call.reportingTo reporter
  mapCall {p q : Progress} (h : R p q) {f : Call → Call} (hf : Call.IsMild f) :
    R (p.mapCall f) (q.mapCall f)
  note {p q : Progress} (h : R p q) {n : Note} (hn : ∀ d, n ≠ .defect d) :
    R (p.add [.noted n]) (q.add [.noted n])
  /-- Each side gives a defect to its own reporter. -/
  report {p q : Progress} (h : R p q) (d : Defect) :
    R (p.add (p.scene.call.reporter.happenings d)) (q.add (q.scene.call.reporter.happenings d))
  notify {p q : Progress} (h : R p q) (change : Change) : R (p.notify change) (q.notify change)
  promoteRecord {p q : Progress} (h : R p q) : R p.promoteRecord q.promoteRecord
  runAcceptance {p q : Progress} (h : R p q) (a : Acceptance) :
    R (p.runAcceptance a) (q.runAcceptance a)

namespace Likeness

/-- Two outcomes with one reply, and alike in all else. -/
def Alike (R : Progress → Progress → Prop) (o o' : Outcome) : Prop :=
  o'.reply = o.reply ∧ R o.progress o'.progress

variable {thread : Thread} {R : Progress → Progress → Prop} (L : Likeness thread R)

/-! ### The parts of an operation -/

section Parts

variable {p q : Progress} (h : R p q)
include L h

/-- What does not depend on the reporter is the same of both calls. -/
theorem same {α : Type} {f : Call → α}
    (hf : ∀ call reporter, f (call.reportingTo reporter) = f call) :
    f q.scene.call = f p.scene.call := by
  obtain ⟨reporter, hcall⟩ := L.call h
  rw [hcall, hf]

theorem owner : q.scene.call.owner = p.scene.call.owner :=
  L.same h fun _ _ => rfl

theorem label : q.scene.call.label = p.scene.call.label :=
  L.same h fun _ _ => rfl

theorem deferred : q.scene.call.deferred = p.scene.call.deferred :=
  L.same h fun _ _ => rfl

theorem check (operation : String) :
    R (p.add (p.scene.call.strayed thread operation))
      (q.add (q.scene.call.strayed thread operation)) := by
  unfold Call.strayed
  rw [L.owner h]
  split
  · simpa using h
  · exact L.report h _

theorem reassign (id : UInt64) :
    R (p.add (p.scene.call.reassignment id)) (q.add (q.scene.call.reassignment id)) := by
  have hsame : q.scene.call.reassignment id = p.scene.call.reassignment id :=
    L.same h (f := (·.reassignment id)) fun _ _ => rfl
  rw [hsame]
  unfold Call.reassignment
  split
  · simpa using h
  · split
    · simpa using h
    · exact L.note h fun _ => nofun

theorem discardDeferred : R p.discardDeferred q.discardDeferred := by
  have hcleared := L.mapCall h (f := ({ · with deferred := none })) ⟨fun _ _ => rfl, fun _ => rfl⟩
  unfold Progress.discardDeferred
  rw [L.deferred h, L.label h]
  split
  · exact L.note hcleared fun _ => nofun
  · exact h

theorem enter (new : Phase) : R (p.enter new) (q.enter new) := by
  have hphase : q.scene.call.phase = p.scene.call.phase := L.same h fun _ _ => rfl
  have hmapped := L.mapCall h (f := ({ · with phase := new })) ⟨fun _ _ => rfl, fun _ => rfl⟩
  have hmoved := L.note hmapped (n := .phaseChanged p.scene.call.phase new p.scene.call.label)
    fun _ => nofun
  simp only [Progress.enter]
  rw [hphase, L.label h]
  split
  · exact L.promoteRecord hmoved
  · exact L.promoteRecord (L.discardDeferred hmoved)

theorem enqueue (a : Acceptance) : R (p.enqueue a) (q.enqueue a) := by
  have hqueued := L.mapCall h (f := ({ · with deferred := some a })) ⟨fun _ _ => rfl, fun _ => rfl⟩
  simp only [Progress.enqueue]
  rw [L.deferred h]
  split
  · exact L.report hqueued .deferredReplaced
  · exact hqueued

theorem carryOut (a : Acceptance) : R (p.carryOut a) (q.carryOut a) := by
  have hran := L.runAcceptance h a
  unfold Progress.carryOut Acceptance.lament
  rw [L.label h]
  cases a.failure with
  | none => simpa using hran
  | some e => exact L.note hran fun _ => nofun

theorem move (new : Phase) (reply : Reply) :
    Alike R (((p.enter new).notify (.phase new)).outcome reply)
      (((q.enter new).notify (.phase new)).outcome reply) :=
  ⟨rfl, L.notify (L.enter h new) _⟩

theorem queue (a : Acceptance) (reply : Reply) :
    Alike R ((((p.enter .accepting).enqueue a).notify (.phase .accepting)).outcome reply)
      ((((q.enter .accepting).enqueue a).notify (.phase .accepting)).outcome reply) :=
  ⟨rfl, L.notify (L.enqueue (L.enter h _) a) _⟩

/-- A check is the end of both operations, or of neither. -/
theorem afterCheck {operation : String}
    (hbars : q.scene.call.bars thread operation = p.scene.call.bars thread operation)
    {o o' : Outcome} (hdone : Alike R o o') :
    Alike R
      (if p.scene.call.bars thread operation then
        (p.add (p.scene.call.strayed thread operation)).outcome
          (.aborted (.offContext operation p.scene.call.owner thread))
      else o)
      (if q.scene.call.bars thread operation then
        (q.add (q.scene.call.strayed thread operation)).outcome
          (.aborted (.offContext operation q.scene.call.owner thread))
      else o') := by
  rw [hbars]
  cases p.scene.call.bars thread operation with
  | true =>
      refine ⟨?_, L.check h operation⟩
      simp only [↓reduceIte, Progress.outcome_reply, L.owner h]
  | false => exact hdone

theorem conclude
    (hbars : q.scene.call.bars thread "set_state" = p.scene.call.bars thread "set_state")
    (a : Acceptance) : Alike R (p.conclude thread a) (q.conclude thread a) := by
  have hran := L.carryOut h a
  exact L.afterCheck hran hbars (L.move (L.check hran "set_state") a.target a.verdict)

end Parts

/-! ### Operations

Both scenes are taken apart here, so that what an operation asks of the one call it asks of the
other in the same words.
-/

section Operations

variable {scene : Scene} {reporter : Reporter} {around : Surroundings}
  (h : R ⟨scene, []⟩ ⟨⟨scene.call.reportingTo reporter, around⟩, []⟩)

variable (scene reporter thread) in
/-- Whether a call gives up at the same of some checks, whichever of two reporters it has. -/
def GivesUpAlike (checks : List String) : Prop :=
  ∀ operation ∈ checks,
    (scene.call.reportingTo reporter).bars thread operation = scene.call.bars thread operation

include L h

theorem checked (operation : String) :
    R (scene.checked thread operation)
      (Scene.checked ⟨scene.call.reportingTo reporter, around⟩ thread operation) :=
  L.check h operation

/-- An operation that makes a check first is given up on both sides, or on neither. -/
theorem afterFirst {operation : String} {rest : List String}
    (hbars : GivesUpAlike thread scene reporter (operation :: rest)) {o o' : Outcome}
    (hdone : Alike R o o') :
    Alike R (if scene.call.bars thread operation then scene.giveUp thread operation else o)
      (if (scene.call.reportingTo reporter).bars thread operation then
        Scene.giveUp ⟨scene.call.reportingTo reporter, around⟩ thread operation else o') :=
  L.afterCheck h (hbars operation (by simp)) hdone

theorem refusal (operation : String) (d : Defect) (reply : Reply) :
    Alike R
      (((scene.checked thread operation).add (scene.call.reporter.happenings d)).outcome reply)
      (((Scene.checked ⟨scene.call.reportingTo reporter, around⟩ thread operation).add
        (reporter.happenings d)).outcome reply) :=
  ⟨rfl, L.report (L.checked h operation) d⟩

/-- An operation that changes the call and no more. -/
theorem change (operation : String) {f : Call → Call} (hf : Call.IsMild f) (reply : Reply) :
    Alike R (((scene.checked thread operation).mapCall f).outcome reply)
      (((Scene.checked ⟨scene.call.reportingTo reporter, around⟩ thread operation).mapCall
        f).outcome reply) :=
  ⟨rfl, L.mapCall (L.checked h operation) hf⟩

theorem setPhase (new : Phase) {rest : List String}
    (hbars : GivesUpAlike thread scene reporter ("set_state" :: rest)) :
    Alike R (scene.perform thread (.setPhase new))
      (Scene.perform ⟨scene.call.reportingTo reporter, around⟩ thread (.setPhase new)) := by
  rw [scene.perform_setPhase, Scene.perform_setPhase]
  refine L.afterFirst h hbars ?_
  show Alike R _ (if Phase.allows scene.call.enforced scene.call.phase new then _ else _)
  split
  · exact L.move (L.checked h _) new _
  · exact L.refusal h _ _ _

theorem answer (a : Acceptance)
    (hbars : GivesUpAlike thread scene reporter (Operation.checks scene.call (.answer a))) :
    Alike R (scene.perform thread (.answer a))
      (Scene.perform ⟨scene.call.reportingTo reporter, around⟩ thread (.answer a)) := by
  let scene' : Scene := ⟨scene.call.reportingTo reporter, around⟩
  by_cases hready : scene.call.phase = .ringingReadyToAnswer
  · have hready' : scene'.call.phase = .ringingReadyToAnswer := hready
    rw [Operation.checks_of_findings (Operation.findings_answer_of_ready hready a) rfl] at hbars
    rw [Scene.perform_answer_of_ready hready, Scene.perform_answer_of_ready hready']
    exact L.conclude h (hbars "set_state" (by simp)) a
  · by_cases hanticipatory : scene.call.phase = .ringingAnticipatory
    · have hanticipatory' : scene'.call.phase = .ringingAnticipatory := hanticipatory
      rw [Operation.checks_answer_of_anticipatory hanticipatory] at hbars
      have hsame := hbars "begin_accepting" (by simp)
      have hnoted := L.note h (n := .acceptanceDeferred scene.call.label) fun _ => nofun
      rw [Scene.perform_answer_of_anticipatory hanticipatory,
        Scene.perform_answer_of_anticipatory hanticipatory']
      exact L.afterCheck hnoted hsame (L.queue (L.check hnoted "begin_accepting") a _)
    · have hready' : scene'.call.phase ≠ .ringingReadyToAnswer := hready
      have hanticipatory' : scene'.call.phase ≠ .ringingAnticipatory := hanticipatory
      rw [Scene.perform_answer_of_not_ringing hready hanticipatory,
        Scene.perform_answer_of_not_ringing hready' hanticipatory']
      exact ⟨rfl, L.note h fun _ => nofun⟩

theorem engineReady
    (hbars : GivesUpAlike thread scene reporter (Operation.checks scene.call .engineReady)) :
    Alike R (scene.perform thread .engineReady)
      (Scene.perform ⟨scene.call.reportingTo reporter, around⟩ thread .engineReady) := by
  let scene' : Scene := ⟨scene.call.reportingTo reporter, around⟩
  by_cases hunanswered : scene.call.phase = .answering ∨ scene.call.phase = .ringingAnticipatory
  · have hunanswered' : scene'.call.phase = .answering ∨
        scene'.call.phase = .ringingAnticipatory := hunanswered
    have hfindings := Operation.findings_engineReady_of_unanswered hunanswered
    rw [Operation.checks_of_findings hfindings rfl] at hbars
    rw [Scene.perform_engineReady_of_unanswered hunanswered,
      Scene.perform_engineReady_of_unanswered hunanswered']
    exact L.setPhase h _ hbars
  · by_cases hphase : scene.call.phase = .accepting
    · have hphase' : scene'.call.phase = .accepting := hphase
      rw [Operation.checks_engineReady hphase] at hbars
      cases hdeferred : scene.call.deferred with
      | some a =>
          have hdeferred' : scene'.call.deferred = some a := hdeferred
          have htaken := L.mapCall (L.checked h "take_deferred_acceptance")
            (f := ({ · with deferred := none })) ⟨fun _ _ => rfl, fun _ => rfl⟩
          rw [Scene.perform_engineReady_of_queued hphase hdeferred,
            Scene.perform_engineReady_of_queued hphase' hdeferred']
          exact L.afterFirst h hbars (L.conclude htaken (hbars "set_state" (by simp)) a)
      | none =>
          have hdeferred' : scene'.call.deferred = none := hdeferred
          have hreported := L.report (L.checked h "take_deferred_acceptance")
            .acceptingWithoutDeferred
          rw [Scene.perform_engineReady_of_nothing_queued hphase hdeferred,
            Scene.perform_engineReady_of_nothing_queued hphase' hdeferred']
          refine L.afterFirst h hbars (L.afterCheck hreported (hbars "set_state" (by simp)) ?_)
          exact L.move (L.check hreported _) _ _
    · rw [not_or] at hunanswered
      have hunanswered' : scene'.call.phase ≠ .answering ∧
          scene'.call.phase ≠ .ringingAnticipatory := hunanswered
      have hphase' : scene'.call.phase ≠ .accepting := hphase
      rw [Scene.perform_engineReady_of_else hunanswered.1 hunanswered.2 hphase,
        Scene.perform_engineReady_of_else hunanswered'.1 hunanswered'.2 hphase']
      exact ⟨rfl, L.note h fun _ => nofun⟩

theorem assignSignalingId (id : UInt64)
    (hbars : GivesUpAlike thread scene reporter ["set_signaling_id"]) :
    Alike R (scene.perform thread (.assignSignalingId id))
      (Scene.perform ⟨scene.call.reportingTo reporter, around⟩ thread
        (.assignSignalingId id)) := by
  have hnoted := L.reassign (L.checked h "set_signaling_id") id
  have hassigned := L.mapCall hnoted (f := ({ · with signalingId := some id }))
    ⟨fun _ _ => rfl, fun _ => rfl⟩
  rw [scene.perform_assignSignalingId, Scene.perform_assignSignalingId]
  refine L.afterFirst h hbars ⟨rfl, L.note hassigned ?_⟩
  exact fun _ => nofun

theorem setSwitch (switch : Switch) (on : Bool)
    (hbars : GivesUpAlike thread scene reporter [switch.operation]) :
    Alike R (scene.perform thread (.setSwitch switch on))
      (Scene.perform ⟨scene.call.reportingTo reporter, around⟩ thread
        (.setSwitch switch on)) := by
  have hold : switch.isOn (scene.call.reportingTo reporter) = switch.isOn scene.call := by
    cases switch <;> rfl
  have hnote : ∀ old d, switch.note old on ≠ .defect d := by
    intro old d
    cases switch <;> nofun
  rw [scene.perform_setSwitch, Scene.perform_setSwitch]
  refine L.afterFirst h hbars ⟨rfl, L.notify ?_ _⟩
  show R _ (Progress.add [.noted (switch.note (switch.isOn _) on)] _)
  rw [hold]
  exact L.note (L.mapCall (L.checked h _) (switch.isMild_set on)) (hnote _)

/-- **What the parts of an operation keep, every operation keeps.** -/
theorem operation (op : Operation)
    (hbars : GivesUpAlike thread scene reporter (op.checks scene.call)) :
    Alike R (scene.perform thread op)
      (Scene.perform ⟨scene.call.reportingTo reporter, around⟩ thread op) := by
  cases op with
  | setPhase new => exact L.setPhase h new hbars
  | awaitMedia a =>
      rw [scene.perform_awaitMedia, Scene.perform_awaitMedia]
      refine L.afterFirst h hbars ?_
      show Alike R _ (if Phase.allows scene.call.enforced scene.call.phase .accepting then _ else _)
      split
      · exact L.queue (L.checked h _) a _
      · exact L.refusal h _ _ _
  | deferAcceptance a =>
      rw [scene.perform_deferAcceptance, Scene.perform_deferAcceptance]
      refine L.afterFirst h hbars ?_
      show Alike R _ (if scene.call.phase = .accepting then _ else _)
      split
      · exact ⟨rfl, L.enqueue (L.checked h _) a⟩
      · exact L.refusal h _ _ _
  | handOver =>
      rw [scene.perform_handOver, Scene.perform_handOver]
      refine L.afterFirst h hbars (L.change h _ ?_ _)
      exact ⟨fun _ _ => rfl, fun _ => rfl⟩
  | answer a => exact L.answer h a hbars
  | engineReady => exact L.engineReady h hbars
  | linkRecord record =>
      rw [scene.perform_linkRecord, Scene.perform_linkRecord]
      refine L.afterFirst h hbars ?_
      show Alike R _ (if scene.call.record.isSome then _ else _)
      split
      · exact L.refusal h _ _ _
      · refine ⟨rfl, L.promoteRecord (L.mapCall (L.checked h _) ?_)⟩
        exact ⟨fun _ _ => rfl, fun _ => rfl⟩
  | assignSignalingId id => exact L.assignSignalingId h id hbars
  | setSwitch switch on => exact L.setSwitch h switch on hbars
  | setRoute route =>
      rw [scene.perform_setRoute, Scene.perform_setRoute]
      have hset := L.mapCall (L.checked h "set_network_route") (f := ({ · with route := route }))
        ⟨fun _ _ => rfl, fun _ => rfl⟩
      refine L.afterFirst h hbars ⟨rfl, L.note hset ?_⟩
      exact fun _ => nofun
  | attach listener =>
      rw [scene.perform_attach, Scene.perform_attach]
      refine L.afterFirst h hbars (L.change h _ ?_ _)
      exact ⟨fun _ _ => rfl, fun _ => rfl⟩
  | detach =>
      rw [scene.perform_detach, Scene.perform_detach]
      refine L.afterFirst h hbars (L.change h _ ?_ _)
      exact ⟨fun _ _ => rfl, fun _ => rfl⟩
  | register =>
      rw [scene.perform_register, Scene.perform_register]
      refine L.afterFirst h hbars (L.change h _ ?_ _)
      exact ⟨fun _ _ => rfl, fun _ => rfl⟩
  | deregister =>
      rw [scene.perform_deregister, Scene.perform_deregister]
      refine L.afterFirst h hbars ?_
      show Alike R _ (if scene.call.registered then _ else _)
      split
      · refine L.change h _ ?_ _
        exact ⟨fun _ _ => rfl, fun _ => rfl⟩
      · exact L.refusal h _ _ _

end Operations

include L in
/-- Operations on two scenes that are alike come to what is alike, as long as the two give up at
the same checks. -/
theorem perform {scene scene' : Scene} (h : R ⟨scene, []⟩ ⟨scene', []⟩) (op : Operation)
    (hbars : ∀ operation ∈ op.checks scene.call,
      scene'.call.bars thread operation = scene.call.bars thread operation) :
    Alike R (scene.perform thread op) (scene'.perform thread op) := by
  obtain ⟨reporter, hcall⟩ := L.call h
  obtain ⟨call', around'⟩ := scene'
  obtain rfl : call' = scene.call.reportingTo reporter := hcall
  exact L.operation h op hbars

end Likeness

end CallLifecycle
