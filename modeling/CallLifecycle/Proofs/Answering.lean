/-
What operations do to answering.

Of a call, answering is concerned with two things only, its phase and the
acceptance that it has queued; and of what happens, with the acceptances that run.
`Settles` says of an outcome what these three are.  Whoever is told of anything in
between can see the same two things of the call, because the notice is the last
thing that happens.

Most operations are no step of answering.  `LeavesAnswering` says so of an
outcome, `perform_aside` of the eight operations that have nothing to do with
answering, and the same is said of any operation that is refused or given up.
`perform_step` then lists, once, every way in which the other six may end, each with
what it takes to end so, and what is proved of answering goes by the cases of `Step`.
-/
import CallLifecycle.Proofs.Episodes

namespace CallLifecycle

open Trace

/-! ### Where an outcome leaves answering -/

/-- Where an outcome leaves the phase and the queue of a call, and what ran on the way. -/
structure Outcome.Settles (o : Outcome) (new : Phase) (queued : Option Acceptance)
    (done : List Acceptance) : Prop where
  phase : o.scene.call.phase = new
  deferred : o.scene.call.deferred = queued
  ran : acceptances o.trace = done
  /-- Whoever was told of anything could see as much. -/
  told : ∀ d ∈ deliveries o.trace, d.seen.call.phase = new ∧ d.seen.call.deferred = queued

/-- The acceptance that an operation hands out, if it does. -/
def Reply.handed? : Reply → Option Acceptance
  | handed a => a
  | _ => none

/-- An outcome that is no step of answering the call. -/
structure Outcome.LeavesAnswering (call : Call) (o : Outcome) : Prop
    extends o.Settles call.phase call.deferred [] where
  /-- No notice was of a phase. -/
  hushed : ∀ d ∈ deliveries o.trace, ∀ new, d.change ≠ .phase new
  /-- Only a connected call asked anything of its record. -/
  asked : call.phase ≠ .connected → requests o.trace = []
  /-- No acceptance was handed out. -/
  handed : o.reply.handed? = none

namespace Progress

variable {p : Progress} {new : Phase} {queued : Option Acceptance} {done : List Acceptance}

/-- An outcome that tells nobody of anything is settled by its call. -/
theorem settles_of_silent (hphase : p.scene.call.phase = new)
    (hdeferred : p.scene.call.deferred = queued) (hran : acceptances p.trace = done)
    (htold : deliveries p.trace = []) (reply : Reply) :
    (p.outcome reply).Settles new queued done :=
  ⟨hphase, hdeferred, hran, by simp [htold]⟩

/-- The last thing that happens is that the listener is told. -/
theorem settles_notify (hphase : p.scene.call.phase = new)
    (hdeferred : p.scene.call.deferred = queued) (hran : acceptances p.trace = done)
    (htold : deliveries p.trace = []) (change : Change) (reply : Reply) :
    ((p.notify change).outcome reply).Settles new queued done := by
  refine ⟨by simpa using hphase, by simpa using hdeferred, by simpa using hran, fun d hd => ?_⟩
  rcases mem_deliveries_notify hd with hold | ⟨-, hseen⟩
  · rw [htold] at hold
    cases hold
  · rw [hseen]
    exact ⟨hphase, hdeferred⟩

/-- What leaves the call as far as it was, tells nobody and asks nothing leaves answering alone. -/
theorem leavesAnswering_of_silent {call : Call} {reply : Reply}
    (hphase : p.scene.call.phase = call.phase) (hdeferred : p.scene.call.deferred = call.deferred)
    (hran : acceptances p.trace = []) (htold : deliveries p.trace = [])
    (hasked : call.phase ≠ .connected → requests p.trace = [])
    (hhanded : reply.handed? = none) : (p.outcome reply).LeavesAnswering call :=
  ⟨settles_of_silent hphase hdeferred hran htold reply, by simp [htold], hasked, hhanded⟩

end Progress

namespace Switch

variable (on : Bool) (call : Call) (switch : Switch)

@[simp] theorem set_phase : (switch.set on call).phase = call.phase := by
  cases switch <;> rfl

@[simp] theorem set_deferred : (switch.set on call).deferred = call.deferred := by
  cases switch <;> rfl

theorem change_ne_phase (new : Phase) : switch.change on ≠ .phase new := by
  cases switch <;> simp [change]

end Switch

/-- Whether an operation has nothing to do with answering. -/
def Operation.isAside : Operation → Bool
  | linkRecord _ | assignSignalingId _ | setSwitch .. | setRoute _ | attach _ | detach | register
  | deregister => true
  | _ => false

namespace Scene

variable (scene : Scene) (thread : Thread)

theorem leavesAnswering_giveUp (operation : String) :
    (scene.giveUp thread operation).LeavesAnswering scene.call :=
  Progress.leavesAnswering_of_silent rfl rfl (by simp) (by simp) (by simp) rfl

/-- A refusal is reported, and nothing else comes of it. -/
theorem leavesAnswering_refusal (operation : String) (d : Defect) {reply : Reply}
    (h : reply.handed? = none) :
    (((scene.checked thread operation).add (scene.call.reporter.happenings d)).outcome
      reply).LeavesAnswering scene.call :=
  Progress.leavesAnswering_of_silent rfl rfl (by simp) (by simp) (by simp) h

theorem leavesAnswering_note (n : Note) {reply : Reply} (h : reply.handed? = none) :
    (Progress.outcome ⟨scene, [.noted n]⟩ reply).LeavesAnswering scene.call :=
  Progress.leavesAnswering_of_silent rfl rfl rfl rfl (fun _ => rfl) h

/-- **Eight operations leave answering alone**, however they end. -/
theorem perform_aside {op : Operation} (h : op.isAside = true) :
    (scene.perform thread op).LeavesAnswering scene.call := by
  cases op with
  | linkRecord record =>
      rw [perform_linkRecord]
      split
      · exact leavesAnswering_giveUp scene thread _
      · split
        · exact leavesAnswering_refusal scene thread _ _ rfl
        · refine Progress.leavesAnswering_of_silent (by simp) (by simp) (by simp) (by simp)
            (fun hphase => ?_) rfl
          rw [Progress.promoteRecord_of_phase_ne (by simpa using hphase)]
          simp
  | assignSignalingId id =>
      rw [perform_assignSignalingId]
      split
      · exact leavesAnswering_giveUp scene thread _
      · rcases scene.call.reassignment_eq id with h | ⟨n, h⟩
        · exact Progress.leavesAnswering_of_silent rfl rfl (by simp [h]) (by simp [h])
            (by simp [h]) rfl
        · exact Progress.leavesAnswering_of_silent rfl rfl (by simp [h]) (by simp [h])
            (by simp [h]) rfl
  | setSwitch switch on =>
      rw [perform_setSwitch]
      split
      · exact leavesAnswering_giveUp scene thread _
      · refine ⟨Progress.settles_notify (by simp) (by simp) (by simp) (by simp) _ _,
          fun d hd new => ?_, by simp, rfl⟩
        rcases Progress.mem_deliveries_notify hd with hold | ⟨hchange, -⟩
        · simp at hold
        · rw [hchange]
          exact switch.change_ne_phase on new
  | setRoute route =>
      rw [perform_setRoute]
      split
      · exact leavesAnswering_giveUp scene thread _
      · exact Progress.leavesAnswering_of_silent rfl rfl (by simp) (by simp) (by simp) rfl
  | attach listener =>
      rw [perform_attach]
      split
      · exact leavesAnswering_giveUp scene thread _
      · exact Progress.leavesAnswering_of_silent rfl rfl (by simp) (by simp) (by simp) rfl
  | detach =>
      rw [perform_detach]
      split
      · exact leavesAnswering_giveUp scene thread _
      · exact Progress.leavesAnswering_of_silent rfl rfl (by simp) (by simp) (by simp) rfl
  | register =>
      rw [perform_register]
      split
      · exact leavesAnswering_giveUp scene thread _
      · exact Progress.leavesAnswering_of_silent rfl rfl (by simp) (by simp) (by simp) rfl
  | deregister =>
      rw [perform_deregister]
      split
      · exact leavesAnswering_giveUp scene thread _
      · split
        · exact Progress.leavesAnswering_of_silent rfl rfl (by simp) (by simp) (by simp) rfl
        · exact leavesAnswering_refusal scene thread _ _ rfl
  | _ => cases h

end Scene

/-! ### The steps of answering -/

/-- The acceptance that an operation is given. -/
def Operation.given? : Operation → Option Acceptance
  | awaitMedia a | deferAcceptance a | answer a => some a
  | _ => none

/-- The acceptance that an operation queues if it does what it was called for. -/
def Operation.queued? (found : Phase) : Operation → Option Acceptance
  | awaitMedia a | deferAcceptance a => some a
  | answer a => if found = .ringingAnticipatory then some a else none
  | _ => none

/-- Whether an operation of answering finds a call for which it can do nothing. -/
def Operation.isIdle (call : Call) : Operation → Bool
  | setPhase new => !Phase.allows call.enforced call.phase new
  | awaitMedia _ => !Phase.allows call.enforced call.phase .accepting
  | deferAcceptance _ => call.phase ≠ .accepting
  | handOver => call.deferred.isNone
  | answer _ => call.phase ≠ .ringingReadyToAnswer && call.phase ≠ .ringingAnticipatory
  | engineReady =>
    call.phase ≠ .answering && call.phase ≠ .ringingAnticipatory && call.phase ≠ .accepting
  | _ => false

/-- How an operation of answering replies where it can do nothing. -/
def Operation.idleReply? (found : Phase) : Operation → Option Reply
  | setPhase new => some (.refused (.illegalTransition found new))
  | awaitMedia _ => some (.refused (.illegalTransition found .accepting))
  | deferAcceptance _ => some (.refused (.deferredOutsideAccepting found))
  | handOver => some (.handed none)
  | answer _ => some (.refused (.notRinging found))
  | engineReady => some .done
  | _ => none

theorem Operation.idleReply?_of_isAside {op : Operation} (h : op.isAside = true) (found : Phase) :
    op.idleReply? found = none := by
  cases op <;> first | rfl | cases h

/-- Whether an operation was given up. -/
def Reply.isAborted : Reply → Bool
  | aborted _ => true
  | _ => false

namespace Outcome

/-- Whether it was logged that a queued acceptance is thrown away. -/
def Discards (o : Outcome) : Prop :=
  ∃ label, .deferredDiscarded label ∈ notes o.trace

/-- Whether it was reported that a queued acceptance is replaced. -/
def Replaces (o : Outcome) : Prop :=
  .deferredReplaced ∈ defects o.trace

/-- Whether the operation was given up because of the thread it was called on. -/
def GivenUp (o : Outcome) : Prop :=
  ∃ operation owner thread, o.reply = .aborted (.offContext operation owner thread)

theorem not_givenUp {o : Outcome} (h : o.reply.isAborted = false) : ¬ o.GivenUp := by
  rintro ⟨operation, owner, thread, hreply⟩
  simp [hreply, Reply.isAborted] at h

end Outcome

/-- How an operation ends, as far as answering goes, for a call that it finds. -/
inductive Call.Step (call : Call) (thread : Thread) : Operation → Outcome → Prop
  /-- The operation has nothing to do with answering. -/
  | aside {op : Operation} {o : Outcome} (isAside : op.isAside = true)
      (leaves : o.LeavesAnswering call) : Step call thread op o
  | giveUp {op : Operation} {o : Outcome} {operation : String}
      (bars : call.bars thread operation = true) (leaves : o.LeavesAnswering call)
      (reply : o.GivenUp) : Step call thread op o
  /-- There is nothing to do, or nothing that the call allows. -/
  | idle {op : Operation} {o : Outcome} (isIdle : op.isIdle call = true)
      (leaves : o.LeavesAnswering call) (reply : op.idleReply? call.phase = some o.reply) :
      Step call thread op o
  | move {new : Phase} {o : Outcome}
      (allowed : Phase.allows call.enforced call.phase new = true)
      (settles : o.Settles new (if new = .accepting then call.deferred else none) [])
      (discards : new ≠ .accepting → call.deferred.isSome = true → o.Discards)
      (reply : o.reply = .done) : Step call thread (.setPhase new) o
  | queue {op : Operation} {a : Acceptance} {o : Outcome}
      (allowed : Phase.allows call.enforced call.phase .accepting = true)
      (queued : op.queued? call.phase = some a) (settles : o.Settles .accepting (some a) [])
      (replaces : call.deferred.isSome = true → o.Replaces) (reply : o.reply = .done) :
      Step call thread op o
  | handOver {a : Acceptance} {o : Outcome} (deferred : call.deferred = some a)
      (settles : o.Settles call.phase none []) (reply : o.reply = .handed (some a)) :
      Step call thread .handOver o
  /-- The acceptance has run when the thread is found to be the wrong one. -/
  | strand {a : Acceptance} {o : Outcome} (phase : call.phase = .ringingReadyToAnswer)
      (settles : o.Settles call.phase call.deferred [a]) (reply : o.GivenUp) :
      Step call thread (.answer a) o
  /-- The acceptance has been taken out and has run when the thread is found to be the wrong one. -/
  | strandQueued {a : Acceptance} {o : Outcome} (phase : call.phase = .accepting)
      (deferred : call.deferred = some a) (settles : o.Settles call.phase none [a])
      (reply : o.GivenUp) : Step call thread .engineReady o
  | answer {a : Acceptance} {o : Outcome} (phase : call.phase = .ringingReadyToAnswer)
      (settles : o.Settles a.target none [a])
      (discards : call.deferred.isSome = true → o.Discards) (reply : o.reply = a.verdict) :
      Step call thread (.answer a) o
  | getReady {o : Outcome}
      (phase : call.phase = .answering ∨ call.phase = .ringingAnticipatory)
      (settles : o.Settles .ringingReadyToAnswer none [])
      (discards : call.deferred.isSome = true → o.Discards) (reply : o.reply = .done) :
      Step call thread .engineReady o
  | complete {a : Acceptance} {o : Outcome} (phase : call.phase = .accepting)
      (deferred : call.deferred = some a) (settles : o.Settles a.target none [a])
      (reply : o.reply = a.verdict) : Step call thread .engineReady o
  /-- There is nothing to complete. -/
  | fail {o : Outcome} (phase : call.phase = .accepting) (deferred : call.deferred = none)
      (settles : o.Settles .localFailure none [])
      (reply : o.reply = .refused .noDeferredAcceptance) : Step call thread .engineReady o

namespace Progress

variable {p : Progress} {done : List Acceptance}

/-- Entering a phase settles a call there, with what it had queued if it is `accepting`. -/
theorem settles_enter (hran : acceptances p.trace = done) (htold : deliveries p.trace = [])
    (new : Phase) (reply : Reply) :
    (((p.enter new).notify (.phase new)).outcome reply).Settles new
      (if new = .accepting then p.scene.call.deferred else none) done :=
  settles_notify (by simp) (by simp) (by simpa using hran) (by simpa using htold) _ _

/-- A call that leaves `accepting`, or was never in it, says so of what it had queued. -/
theorem discards_enter {new : Phase} (hnew : new ≠ .accepting)
    (h : p.scene.call.deferred.isSome = true) (change : Change) (reply : Reply) :
    (((p.enter new).notify change).outcome reply).Discards := by
  obtain ⟨label, hlabel⟩ := mem_notes_enter hnew h
  exact ⟨label, notes_subset_notify _ _ hlabel⟩

/-- Once an acceptance has run, the call is where that leads. -/
theorem conclude_of_not_bars {thread : Thread}
    (h : p.scene.call.bars thread "set_state" = false) (hran : acceptances p.trace = [])
    (htold : deliveries p.trace = []) (a : Acceptance) :
    (p.conclude thread a).Settles a.target none [a] ∧
      (p.scene.call.deferred.isSome = true → (p.conclude thread a).Discards) ∧
      (p.conclude thread a).reply = a.verdict := by
  simp only [conclude, h, Bool.false_eq_true, ↓reduceIte]
  have htarget := a.target_ne_accepting
  refine ⟨?_, fun hd => discards_enter htarget (by simpa using hd) _ _, rfl⟩
  have hsettles : ∀ q : Progress, acceptances q.trace = [a] → deliveries q.trace = [] →
      (((q.enter a.target).notify (.phase a.target)).outcome a.verdict).Settles a.target none
        [a] := by
    intro q hran htold
    have hq := settles_enter hran htold a.target a.verdict
    rwa [if_neg htarget] at hq
  exact hsettles _ (by simp [hran]) (by simp [htold])

/-- On the wrong thread an acceptance runs and leads nowhere. -/
theorem conclude_of_bars {thread : Thread}
    (h : p.scene.call.bars thread "set_state" = true) (hran : acceptances p.trace = [])
    (htold : deliveries p.trace = []) (a : Acceptance) :
    (p.conclude thread a).Settles p.scene.call.phase p.scene.call.deferred [a] ∧
      (p.conclude thread a).GivenUp := by
  simp only [conclude, h, ↓reduceIte]
  exact ⟨settles_of_silent rfl rfl (by simp [hran]) (by simp [htold]) _, _, _, _, rfl⟩

end Progress

namespace Scene

variable (scene : Scene) (thread : Thread)

variable {scene} {thread} in
theorem step_giveUp (op : Operation) (operation : String)
    (h : scene.call.bars thread operation = true) :
    scene.call.Step thread op (scene.giveUp thread operation) :=
  .giveUp h (scene.leavesAnswering_giveUp thread operation) ⟨_, _, _, rfl⟩

/-- A refusal is a reply of an operation that can do nothing. -/
theorem step_refusal {op : Operation} (operation : String) (d : Defect) {e : CallFailure}
    (hidle : op.isIdle scene.call = true)
    (hreply : op.idleReply? scene.call.phase = some (.refused e)) :
    scene.call.Step thread op (((scene.checked thread operation).add
      (scene.call.reporter.happenings d)).outcome (.refused e)) :=
  .idle hidle (leavesAnswering_refusal scene thread operation d rfl) hreply

theorem step_note {op : Operation} {reply : Reply} (n : Note) (h : reply.handed? = none)
    (hidle : op.isIdle scene.call = true)
    (hreply : op.idleReply? scene.call.phase = some reply) :
    scene.call.Step thread op (Progress.outcome ⟨scene, [.noted n]⟩ reply) :=
  .idle hidle (leavesAnswering_note scene n h) hreply

theorem perform_step_setPhase (new : Phase) :
    scene.call.Step thread (.setPhase new) (scene.perform thread (.setPhase new)) := by
  rw [perform_setPhase]
  split
  · exact step_giveUp _ _ ‹_›
  · by_cases ha : Phase.allows scene.call.enforced scene.call.phase new = true
    · rw [if_pos ha]
      exact .move ha (Progress.settles_enter (by simp) (by simp) _ _)
        (fun hnew hd => Progress.discards_enter hnew hd _ _) rfl
    · rw [if_neg ha]
      exact step_refusal scene thread _ _ (by simp [Operation.isIdle, ha]) rfl

theorem perform_step_awaitMedia (a : Acceptance) :
    scene.call.Step thread (.awaitMedia a) (scene.perform thread (.awaitMedia a)) := by
  rw [perform_awaitMedia]
  split
  · exact step_giveUp _ _ ‹_›
  · by_cases ha : Phase.allows scene.call.enforced scene.call.phase .accepting = true
    · rw [if_pos ha]
      refine .queue ha rfl
        (Progress.settles_notify (by simp) (by simp) (by simp) (by simp) _ _) (fun hd => ?_) rfl
      simpa [Outcome.Replaces] using Progress.mem_defects_enqueue (by simpa using hd) a
    · rw [if_neg ha]
      exact step_refusal scene thread _ _ (by simp [Operation.isIdle, ha]) rfl

theorem perform_step_deferAcceptance (a : Acceptance) :
    scene.call.Step thread (.deferAcceptance a) (scene.perform thread (.deferAcceptance a)) := by
  rw [perform_deferAcceptance]
  split
  · exact step_giveUp _ _ ‹_›
  · by_cases hphase : scene.call.phase = .accepting
    · have ha : Phase.allows scene.call.enforced scene.call.phase .accepting = true := by
        rw [hphase]
        cases scene.call.enforced <;> rfl
      rw [if_pos hphase]
      exact .queue ha rfl (Progress.settles_of_silent (by simpa using hphase) (by simp) (by simp)
        (by simp) _) (fun hd => Progress.mem_defects_enqueue hd a) rfl
    · rw [if_neg hphase]
      exact step_refusal scene thread _ _ (by simp [Operation.isIdle, hphase]) rfl

theorem perform_step_handOver :
    scene.call.Step thread .handOver (scene.perform thread .handOver) := by
  rw [perform_handOver]
  split
  · exact step_giveUp _ _ ‹_›
  · cases hdeferred : scene.call.deferred with
    | none =>
        exact .idle (by simp [Operation.isIdle, hdeferred])
          (Progress.leavesAnswering_of_silent rfl hdeferred.symm (by simp) (by simp) (by simp) rfl)
          rfl
    | some a =>
        exact .handOver hdeferred (Progress.settles_of_silent rfl rfl (by simp) (by simp) _) rfl

theorem perform_step_answer (a : Acceptance) :
    scene.call.Step thread (.answer a) (scene.perform thread (.answer a)) := by
  by_cases hready : scene.call.phase = .ringingReadyToAnswer
  · rw [perform_answer_of_ready hready]
    cases hb : scene.call.bars thread "set_state" with
    | true =>
        obtain ⟨hsettles, hreply⟩ :=
          Progress.conclude_of_bars (p := ⟨scene, []⟩) hb rfl rfl a
        exact .strand hready hsettles hreply
    | false =>
        obtain ⟨hsettles, hdiscards, hreply⟩ :=
          Progress.conclude_of_not_bars (p := ⟨scene, []⟩) hb rfl rfl a
        exact .answer hready hsettles hdiscards hreply
  · by_cases hanticipatory : scene.call.phase = .ringingAnticipatory
    · have ha : Phase.allows scene.call.enforced scene.call.phase .accepting = true := by
        rw [hanticipatory]
        cases scene.call.enforced <;> rfl
      rw [perform_answer_of_anticipatory hanticipatory]
      split
      · exact .giveUp ‹_› (Progress.leavesAnswering_of_silent rfl rfl (by simp) (by simp)
          (by simp) rfl) ⟨_, _, _, rfl⟩
      · refine .queue ha (if_pos hanticipatory)
          (Progress.settles_notify (by simp) (by simp) (by simp) (by simp) _ _)
          (fun hd => ?_) rfl
        simpa [Outcome.Replaces] using Progress.mem_defects_enqueue (by simpa using hd) a
    · rw [perform_answer_of_not_ringing hready hanticipatory]
      exact step_note scene thread _ rfl (by simp [Operation.isIdle, hready, hanticipatory]) rfl

theorem perform_step_engineReady :
    scene.call.Step thread .engineReady (scene.perform thread .engineReady) := by
  by_cases hunanswered : scene.call.phase = .answering ∨ scene.call.phase = .ringingAnticipatory
  · have ha : Phase.allows scene.call.enforced scene.call.phase .ringingReadyToAnswer = true := by
      rcases hunanswered with h | h <;> rw [h] <;> cases scene.call.enforced <;> rfl
    rw [perform_engineReady_of_unanswered hunanswered, perform_setPhase, if_pos ha]
    split
    · exact step_giveUp _ _ ‹_›
    · exact .getReady hunanswered (Progress.settles_enter (by simp) (by simp) _ _)
        (fun hd => Progress.discards_enter (by simp) hd _ _) rfl
  · by_cases hphase : scene.call.phase = .accepting
    · cases hdeferred : scene.call.deferred with
      | some a =>
          rw [perform_engineReady_of_queued hphase hdeferred]
          split
          · exact step_giveUp _ _ ‹_›
          · let taken := (scene.checked thread "take_deferred_acceptance").mapCall
              ({ · with deferred := none })
            have hran : acceptances taken.trace = [] := by simp [taken]
            have htold : deliveries taken.trace = [] := by simp [taken]
            cases hb : taken.scene.call.bars thread "set_state" with
            | true =>
                obtain ⟨hsettles, hreply⟩ := Progress.conclude_of_bars hb hran htold a
                exact .strandQueued hphase hdeferred hsettles hreply
            | false =>
                obtain ⟨hsettles, -, hreply⟩ := Progress.conclude_of_not_bars hb hran htold a
                exact .complete hphase hdeferred hsettles hreply
      | none =>
          rw [perform_engineReady_of_nothing_queued hphase hdeferred]
          split
          · exact step_giveUp _ _ ‹_›
          · split
            · refine .giveUp ‹_› ?_ ⟨_, _, _, rfl⟩
              exact Progress.leavesAnswering_of_silent rfl rfl (by simp) (by simp) (by simp) rfl
            · exact .fail hphase hdeferred (Progress.settles_enter (by simp) (by simp) _ _) rfl
    · rw [not_or] at hunanswered
      rw [perform_engineReady_of_else hunanswered.1 hunanswered.2 hphase]
      exact step_note scene thread _ rfl (by simp [Operation.isIdle, hunanswered, hphase]) rfl

/-- **Every operation ends in one of these ways.** -/
theorem perform_step (op : Operation) :
    scene.call.Step thread op (scene.perform thread op) := by
  cases op with
  | setPhase new => exact perform_step_setPhase scene thread new
  | awaitMedia a => exact perform_step_awaitMedia scene thread a
  | deferAcceptance a => exact perform_step_deferAcceptance scene thread a
  | handOver => exact perform_step_handOver scene thread
  | answer a => exact perform_step_answer scene thread a
  | engineReady => exact perform_step_engineReady scene thread
  | _ => exact .aside rfl (scene.perform_aside thread rfl)

end Scene

/-- What an episode of a life comes to. -/
theorem Episode.step (e : Episode) : e.scene.call.Step e.thread e.op e.outcome :=
  e.scene.perform_step e.thread e.op

end CallLifecycle
